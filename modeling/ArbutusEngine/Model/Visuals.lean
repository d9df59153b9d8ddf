import ArbutusEngine.Model.State

/-!
# The list of visuals

The singleton `Visuals`: the constructor of `VisualVideo`, which resolves the path of the file and
throws when there is no such file, and the functions that read, fill and empty the list.

`Visuals::setState` empties the list and then decodes its entries one by one. Of the four types of
visual only videos are decoded; every other entry is passed over without an error, so the list is
shorter than the document whenever one occurs. `Visuals.decode` is what one entry comes to, and
`Visuals.setState_arr` says what a whole document does: the videos of the entries before the first
one that throws are appended, in order, at fresh addresses.

`Visuals::empty` erases the element under its iterator and then advances that iterator. What this
does is left open by C++, and is decided here by `Host.erasedIteratorAdvances`.

## Main definitions

* `VisualVideo.findAbsolutePath`, `VisualVideo.new`.
* `Visuals.getState`, `Visuals.setState`, `Visuals.get`, `Visuals.empty`, `Visuals.addVideo`,
  `Visuals.isFileInList`, `Set.addVisualVideoToListFromFile`.
* `Visuals.decode`, `Visuals.decodeAll`, `EngineState.pushVideos`.

## Main results

* `Visuals.empty_eq`, `Visuals.setState_arr`.
-/

open Exec

namespace ArbutusEngine

/-! ### Videos -/

namespace VisualVideo

/-- `VisualVideo::findAbsolutePath`, `setPath` being the path of the set. -/
def findAbsolutePath (h : Host) (setPath path : String) : String :=
  if h.doesFileExist path false then path
  else
    let path := h.join (h.getEnclosingDirectory setPath) path
    if h.doesFileExist path false then path else ""

/-- `VisualVideo::getCaptionFromPath`. -/
def getCaptionFromPath (h : Host) (path : String) : String :=
  if path = "" then "---" else h.getBaseName path

/-- `VisualVideo::setThumbnail`. The thumbnail itself is not modelled: what remains is the
exception of `Engine::calculateThumbnailPath` and its access to the engine properties. -/
def setThumbnail (h : Host) (filePath : String) : Prog Unit :=
  if filePath = "" then throw (.exception "Path is empty.")
  else do
    let _ ← EngineProperties.getInstance h

/-- `VisualVideo::VisualVideo`. -/
def new (h : Host) (path : String) : Prog Visual := do
  let setPath ← gets EngineState.filePath
  let filePath := findAbsolutePath h setPath path
  setThumbnail h filePath
  let addr ← gets EngineState.nextAddr
  modify fun s => { s with nextAddr := s.nextAddr + 1 }
  return {
    addr := addr
    caption := getCaptionFromPath h filePath
    source := .video filePath
    filePath := "" }

/-- The constructor throws exactly when the path cannot be resolved. -/
theorem new_eq (h : Host) (path : String) (s : EngineState) :
    new h path s =
      let filePath := findAbsolutePath h s.filePath path
      if filePath = "" then .threw (.exception "Path is empty.") s
      else .ok ⟨s.nextAddr, getCaptionFromPath h filePath, .video filePath, ""⟩
        { s with nextAddr := s.nextAddr + 1, properties := s.properties.setDefaults h } := by
  simp only [new, setThumbnail, bind_run, gets_run, Outcome.bind_ok]
  split_ifs <;> rfl

end VisualVideo

/-- `Visual::setState`. -/
def Visual.setState (state : Json) (v : Visual) : Except String Visual :=
  (state.index "caption").bind fun caption =>
    if caption.isString then caption.getString.map fun c => { v with caption := c } else .ok v

theorem Visual.setState_eq {state : Json} (hi : state.isIndexable = true) (v : Visual) :
    v.setState state = .ok { v with caption := state.stringOr "caption" v.caption } := by
  rw [Visual.setState, Json.index_of_isIndexable hi, Except.bind]
  cases hc : state.field "caption" <;>
    simp [Json.stringOr, hc, Json.isString, Json.getString, Except.map]

/-! ### The list -/

namespace Visuals

/-- `Visuals::getState`. -/
def getState (s : EngineState) : Json := .pushAll (s.visualsList.map Visual.getState)

/-- `Visuals::add`, which every caller gives a visual. -/
def add (v : Visual) : Prog Unit := modify fun s => { s with visualsList := s.visualsList ++ [v] }

/-- The loop of `Visuals::get`. -/
def getLoop (pos counter : ℤ) : List Visual → Option Visual
  | [] => none
  | v :: rest => if counter = pos then some v else getLoop pos (counter + 1) rest

/-- `Visuals::get`. -/
def get (visuals : List Visual) (pos : Int32) : Option Visual := getLoop pos.toInt 0 visuals

/-- `it++` on the iterator whose element has just been erased. -/
def advanceErased (h : Host) : Prog Unit :=
  if h.erasedIteratorAdvances then pure () else undefined .erasedIterator

/-- The loop of `Visuals::empty` over the elements that remain. -/
def emptyLoop (h : Host) : List Visual → Prog Unit
  | [] => pure ()
  | _ :: rest => do
    modify fun s => { s with visualsList := rest }
    advanceErased h
    emptyLoop h rest

/-- `Visuals::empty`. -/
def empty (h : Host) : Prog Unit := do
  let visuals ← gets EngineState.visualsList
  emptyLoop h visuals

/-- The body of the loop of `Visuals::setState`. -/
def addState (h : Host) (visualState : Json) : Prog Unit := do
  let type ← Prog.json (visualState.index "type")
  if type.isNumber then
    let type ← Prog.json type.getInt
    -- `VisualType_Video`; the branches of the other types are empty
    if type = 0 then
      let filePath ← Prog.json (visualState.index "filePath")
      if filePath.isString then
        let filePath ← Prog.json filePath.getString
        let newVisual ← VisualVideo.new h filePath
        let newVisual ← Prog.json (newVisual.setState visualState)
        add newVisual

/-- `Visuals::setState`. -/
def setState (h : Host) (state : Json) : Prog Unit :=
  if state.isArray then do
    empty h
    forEach state.elements (addState h)
  else pure ()

/-- `Visuals::addVideo`. What is returned is a `Visual *`. -/
def addVideo (h : Host) (path : String) : Prog Visual := do
  let video ← VisualVideo.new h path
  add video
  return video

/-- `Visuals::isFileInList`: whether some video was found at exactly this path. -/
def isFileInList (visuals : List Visual) (filePath : String) : Bool :=
  visuals.any fun v =>
    match v.source with
    | .video path => filePath == path
    | _ => false

end Visuals

/-- `Set::addVisualVideoToListFromFile`. -/
def Set.addVisualVideoToListFromFile (h : Host) (filePath : String) : Prog Unit := do
  let visuals ← gets EngineState.visualsList
  if Visuals.isFileInList visuals filePath then pure ()
  else do
    let visual ← VisualVideo.new h filePath
    Visuals.add visual

namespace Visuals

/-! ### What the functions do -/

theorem getLoop_eq (pos : ℤ) (visuals : List Visual) :
    ∀ counter : ℤ, getLoop pos counter visuals =
      if counter ≤ pos then visuals[(pos - counter).toNat]? else none := by
  induction visuals with
  | nil => intro counter; simp [getLoop]
  | cons v rest ih =>
    intro counter
    rw [getLoop, ih]
    rcases lt_trichotomy counter pos with hlt | heq | hgt
    · have hsucc : (pos - counter).toNat = (pos - (counter + 1)).toNat + 1 := by omega
      rw [if_neg hlt.ne, if_pos (Int.add_one_le_of_lt hlt), if_pos hlt.le, hsucc,
        List.getElem?_cons_succ]
    · subst heq
      simp
    · rw [if_neg hgt.ne', if_neg (by omega), if_neg (by omega)]

/-- A position finds the visual there; a negative one finds nothing. -/
theorem get_eq (visuals : List Visual) (pos : Int32) :
    get visuals pos = if 0 ≤ pos.toInt then visuals[pos.toInt.toNat]? else none := by
  rw [get, getLoop_eq, Int.sub_zero]

theorem mem_of_get {visuals : List Visual} {pos : Int32} {v : Visual}
    (hv : get visuals pos = some v) : v ∈ visuals := by
  rw [get_eq] at hv
  split_ifs at hv
  exact List.mem_of_getElem? hv

theorem emptyLoop_run (h : Host) (ha : h.erasedIteratorAdvances = true) (visuals : List Visual) :
    ∀ s : EngineState, s.visualsList = visuals →
      emptyLoop h visuals s = .ok () { s with visualsList := [] } := by
  induction visuals with
  | nil => intro s hs; simp [emptyLoop, ← hs]
  | cons v rest ih =>
    intro s _
    simp only [emptyLoop, bind_run, modify_run, Outcome.bind_ok, advanceErased, ha, ↓reduceIte,
      pure_run]
    rw [ih { s with visualsList := rest } rfl]

/-- `Visuals::empty` empties the list, and its behaviour is defined when the list is empty already
or an erased iterator can be advanced. -/
theorem empty_eq (h : Host) (s : EngineState) :
    empty h s = if s.visualsList = [] ∨ h.erasedIteratorAdvances = true then
      .ok () { s with visualsList := [] } else .undefined .erasedIterator := by
  simp only [empty, bind_run, gets_run, Outcome.bind_ok]
  by_cases ha : h.erasedIteratorAdvances = true
  · rw [if_pos (Or.inr ha), emptyLoop_run h ha _ s rfl]
  · cases hs : s.visualsList with
    | nil =>
      rw [if_pos (Or.inl rfl), emptyLoop, pure_run, ← hs]
    | cons v rest =>
      rw [if_neg (by simp [ha])]
      simp [emptyLoop, advanceErased, ha]

/-- Whether an entry of a visuals array describes a video: a number that converts to
`VisualType_Video` under `type`, and a string under `filePath`. -/
def isVideo (visualState : Json) : Bool :=
  (visualState.field "type").isNumber && ((visualState.field "type").getInt.toOption == some 0) &&
    (visualState.field "filePath").isString

/-- What an entry of a visuals array comes to: the caption and path of a video, if it describes
one, and the exception, if it throws. -/
def decode (h : Host) (setPath : String) (visualState : Json) :
    Option (String × String) × Option Thrown :=
  if visualState.isIndexable then
    if isVideo visualState then
      let filePath := VisualVideo.findAbsolutePath h setPath (visualState.stringOr "filePath" "")
      if filePath = "" then (none, some (.exception "Path is empty."))
      else (some
        (visualState.stringOr "caption" (VisualVideo.getCaptionFromPath h filePath), filePath), none)
    else (none, none)
  else (none, some (.exception visualState.indexError))

/-- The videos decoded from the entries up to the first one that throws, and its exception. -/
abbrev decodeAll (h : Host) (setPath : String) :
    List Json → List (String × String) × Option Thrown :=
  collect (decode h setPath)

end Visuals

/-- The state after a decoded video has been appended to the list of visuals. -/
def EngineState.pushVideo (h : Host) (s : EngineState) (video : String × String) : EngineState :=
  { s with
    visualsList := s.visualsList ++ [⟨s.nextAddr, video.1, .video video.2, ""⟩]
    nextAddr := s.nextAddr + 1
    properties := s.properties.setDefaults h }

/-- The state after decoded videos have been appended to the list of visuals. -/
def EngineState.pushVideos (h : Host) (s : EngineState) (videos : List (String × String)) :
    EngineState :=
  videos.foldl (EngineState.pushVideo h) s

/-- The videos at the addresses from `n` on. -/
def Visuals.allocate (n : Addr) : List (String × String) → List Visual
  | [] => []
  | video :: rest => ⟨n, video.1, .video video.2, ""⟩ :: allocate (n + 1) rest

theorem Visuals.length_allocate (base : Addr) (videos : List (String × String)) :
    (Visuals.allocate base videos).length = videos.length := by
  induction videos generalizing base with
  | nil => rfl
  | cons video rest ih => rw [Visuals.allocate, List.length_cons, ih, List.length_cons]

theorem EngineState.pushVideos_eq (h : Host) (s : EngineState) (videos : List (String × String)) :
    s.pushVideos h videos =
      { s with
        visualsList := s.visualsList ++ Visuals.allocate s.nextAddr videos
        nextAddr := s.nextAddr + videos.length
        properties := if videos = [] then s.properties else s.properties.setDefaults h } := by
  induction videos generalizing s with
  | nil => simp [pushVideos, Visuals.allocate]
  | cons video rest ih =>
    change (s.pushVideo h video).pushVideos h rest = _
    rw [ih]
    cases rest <;> simp [pushVideo, Visuals.allocate, Nat.add_assoc, Nat.add_comm 1,
      EngineProperties.setDefaults]

/-- Appending a video at a fresh address keeps the graph well formed. -/
theorem EngineState.WellFormed.pushVideo {s : EngineState} (hs : s.WellFormed) (h : Host)
    (video : String × String) : (s.pushVideo h video).WellFormed where
  visuals_lt v hv := by
    rcases List.mem_append.mp hv with hv | hv
    · exact Nat.lt_succ_of_lt (hs.visuals_lt v hv)
    · rw [List.mem_singleton.mp hv]
      exact Nat.lt_succ_self _
  visuals_ne := by
    refine List.pairwise_append.mpr ⟨hs.visuals_ne, List.pairwise_singleton _ _, ?_⟩
    intro v hv w hw
    rw [List.mem_singleton.mp hw]
    exact Nat.ne_of_lt (hs.visuals_lt v hv)
  scenes_lt scene hscene := Nat.lt_succ_of_lt (hs.scenes_lt scene hscene)
  scenes_ne := hs.scenes_ne
  instances_nodup := hs.instances_nodup
  instances_live := hs.instances_live
  layers_lt layer hlayer := Nat.lt_succ_of_lt (hs.layers_lt layer hlayer)
  layers_le := hs.layers_le
  currentScene_ne := hs.currentScene_ne

theorem EngineState.WellFormed.pushVideos {s : EngineState} (hs : s.WellFormed) (h : Host)
    (videos : List (String × String)) : (s.pushVideos h videos).WellFormed :=
  foldl_push (EngineState.pushVideo h) EngineState.WellFormed
    (fun _ video hs => hs.pushVideo h video) videos hs

theorem EngineState.WellFormed.clearVisuals {s : EngineState} (hs : s.WellFormed) :
    ({ s with visualsList := [] } : EngineState).WellFormed :=
  { hs with
    visuals_lt := fun _ hv => absurd hv List.not_mem_nil
    visuals_ne := .nil }

namespace Visuals

/-- One turn of the loop of `Visuals::setState`. -/
theorem addState_eq (h : Host) (visualState : Json) (s : EngineState) :
    addState h visualState s = .raiseIf (decode h s.filePath visualState).2
      ((decode h s.filePath visualState).1.toList.foldl (EngineState.pushVideo h) s) := by
  by_cases hi : visualState.isIndexable = true
  swap
  · have hi : visualState.isIndexable = false := by simpa using hi
    simp [addState, decode, Json.index_of_not_isIndexable hi, hi]
  have hx := Json.index_of_isIndexable hi
  simp only [addState, decode, hi, ↓reduceIte, hx, isVideo]
  by_cases hn : (visualState.field "type").isNumber = true
  swap
  · simp [hn]
  obtain ⟨n, hn'⟩ := Json.exists_getInt (Json.isNumeric_of_isNumber hn)
  by_cases h0 : n = 0
  swap
  · simp [hn, hn', h0, Except.toOption]
  subst h0
  by_cases hp : (visualState.field "filePath").isString = true
  swap
  · simp [hn, hn', hp, Except.toOption]
  obtain ⟨path, hpath⟩ := Json.exists_getString hp
  have hstr : (Json.str path : Json).isString = true := rfl
  simp only [ofExcept_ok, pure_bind, hn, hn', hpath, hstr, ↓reduceIte, Json.getString,
    Except.toOption, beq_self_eq_true, Bool.and_self, Json.stringOr]
  rw [bind_run, VisualVideo.new_eq]
  dsimp only
  split_ifs with he
  · rfl
  · simp only [Outcome.bind_ok, Visual.setState_eq hi, ofExcept_ok, add]
    rfl

/-- `Visuals::setState` on an array: the list is emptied, then filled with the videos up to the
first entry that throws. -/
theorem setState_arr (h : Host) (entries : List Json) (s : EngineState)
    (hs : s.visualsList = [] ∨ h.erasedIteratorAdvances = true) :
    setState h (.arr entries) s = .raiseIf (decodeAll h s.filePath entries).2
      (({ s with visualsList := [] } : EngineState).pushVideos h
        (decodeAll h s.filePath entries).1) := by
  simp only [setState, Json.isArray, ↓reduceIte, bind_run, empty_eq, if_pos hs, Outcome.bind_ok,
    Json.elements]
  refine forEach_eq_collect (EngineState.pushVideo h) (fun t => t.filePath = s.filePath)
    (fun _ _ ht => ht) entries (fun e _ t ht => ?_) _ rfl
  rw [addState_eq, ht]

end Visuals

end ArbutusEngine
