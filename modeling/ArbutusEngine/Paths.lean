import ArbutusEngine.Opening

/-!
# Where a set is saved

The path of the set is kept twice. `Engine::saveSet` writes to `Set::filePath`, which
`Set::saveSetAs` assigns before it saves and which `Set::openSet` never assigns;
`Engine::getCurrentFilePath` reads a property that every access to the engine properties resets to
the empty string. So after a set has been opened or saved under a path, the two agree with that path
only when it is empty.

A session is the engine together with the path that is open, which no function of the engine keeps:
the argument of the latest successful `openSet` or `saveSetAs` since the last `newSet` or
`closeSet`.

## Main definitions

* `Session`, `Session.step`, `Session.Consistent`.
* `JsonSave.canSave`, `Opens`: when saving and opening succeed.
* `Session.Admits`: the calls that keep the paths together.

## Main results

* `Set.saveSetAs_post`, `Engine.openSet_post`.
* `session_consistent`: every session of admitted calls is consistent.
-/

open Exec

namespace ArbutusEngine

/-! ### Saving and opening -/

/-- `JsonSave::save` gets to its end, for a text that it writes. -/
def JsonSave.canSave (h : Host) (path text : String) : Bool :=
  h.doesDirectoryExist (h.getEnclosingDirectory path) && h.ofBufferToFile path text &&
    h.doesWrittenFileExist path

/-- The file can be read, and no stage of reading its document throws. -/
def Opens (h : Host) (path : String) (s : EngineState) : Prop :=
  (h.doesFileExist path true = true ∧ (h.parse (h.getText path)).isOk = true) ∧
    (JsonLoad.document h path).isIndexable = true ∧
    visualsError h s.filePath ((JsonLoad.document h path).field "visuals") = none ∧
    layersError h ((JsonLoad.document h path).field "layers") = none ∧
    scenesError (EngineState.afterVisuals h ((JsonLoad.document h path).field "visuals")
      (s.beforeLoad h)).visualsList ((JsonLoad.document h path).field "scenes") = none

instance (h : Host) (path : String) (s : EngineState) : Decidable (Opens h path s) :=
  inferInstanceAs (Decidable (_ ∧ _ ∧ _ ∧ _ ∧ _))

/-- Saving under a path stores the path whether it succeeds or not, and writes to no other file. -/
theorem Set.saveSetAs_post {s : EngineState} (hs : s.WellFormed) (h : Host) (path : String) :
    (Set.saveSetAs h path s).Post
      (fun _ t => JsonSave.canSave h path (h.dump 4 s.document) = true ∧ t.filePath = path ∧
        ∃ text, t.written = s.written ++ [(path, text)])
      fun _ t => JsonSave.canSave h path (h.dump 4 s.document) = false ∧ t.filePath = path ∧
        (t.written = s.written ∨ ∃ text, t.written = s.written ++ [(path, text)]) := by
  rw [Set.saveSetAs, bind_run, modify_run, Outcome.bind_ok, bind_run]
  have hs' : ({ s with filePath := path } : EngineState).WellFormed := { hs with }
  by_cases hc : s.Connected
  swap
  · rw [Engine.getState_of_not_connected hs' hc]
    trivial
  rw [Engine.getState_of_connected hs' hc, Outcome.bind_ok]
  change (JsonSave.save h path s.document { s with filePath := path }).Post _ _
  have hvalid : JsonSave.validateState s.document = pure () := rfl
  rw [JsonSave.save, hvalid, pure_bind, JsonSave.canSave]
  by_cases hd : h.doesDirectoryExist (h.getEnclosingDirectory path) = true
  swap
  · simp [hd]
  by_cases hw : h.ofBufferToFile path (h.dump 4 s.document) = true
  swap
  · simp [hd, hw]
  by_cases he : h.doesWrittenFileExist path = true
  · simp [hd, hw, he]
  · simp [hd, hw, he]

/-- Opening a set leaves the path alone under which the last one was saved. -/
theorem Engine.openSet_post {s : EngineState} (hs : s.WellFormed) (h : Host) (path : String) :
    (Engine.openSet h path s).Post (fun _ t => Opens h path s ∧ t.filePath = s.filePath)
      fun _ t => t.filePath = s.filePath := by
  have hbefore : (s.beforeLoad h).filePath = s.filePath := by
    rw [EngineState.beforeLoad]
    split_ifs <;> rfl
  cases hrun : Engine.openSet h path s with
  | undefined u => trivial
  | threw e t =>
    obtain ⟨v, l, sc, i, n, p, rfl⟩ :=
      (Engine.readingFails_of_openSet hs hrun).exists_eq (hs.beforeLoad h)
    exact hbefore
  | ok b t =>
    obtain ⟨hload, u, hset, hfinish⟩ := Engine.openSet_eq_ok hs hrun
    obtain ⟨buffer, q, -, hfinish'⟩ := Engine.exists_finishSet h path u
    rw [hfinish'] at hfinish
    obtain ⟨-, rfl⟩ := Outcome.ok.inj hfinish
    obtain ⟨v, l, sc, i, n, p, hu⟩ :=
      Engine.exists_of_setState (hs.beforeLoad h) (by rw [hset]; rfl)
    refine ⟨?_, (congrArg EngineState.filePath hu).trans hbefore⟩
    obtain ⟨hi, -, hve, -, hle, hse, -⟩ :=
      (Engine.setState_eq_ok_iff (hs.beforeLoad h) h _).mp hset
    rw [hbefore] at hve
    refine ⟨?_, hi, hve, hle, hse⟩
    rw [JsonLoad.load] at hload
    by_cases hex : h.doesFileExist path true = true
    · refine ⟨hex, ?_⟩
      rw [if_pos hex] at hload
      cases hparse : h.parse (h.getText path) with
      | ok document => rfl
      | error what =>
        rw [hparse] at hload
        cases hload
    · rw [if_neg hex] at hload
      cases hload

/-! ### Sessions -/

/-- The engine, and the path of the set that is open: the argument of the latest successful
`openSet` or `saveSetAs` since the last `newSet` or `closeSet`. -/
structure Session where
  engine : EngineState
  opened : Option String

def Session.init : Session := ⟨EngineState.init, none⟩

/-- The path that is open after a call. -/
def Command.openedAfter (c : Command) (returned : Bool) (opened : Option String) : Option String :=
  match c, returned with
  | .newSet .., _ => none
  | .closeSet, _ => none
  | .openSet path, true => some path
  | .saveSetAs path, true => some path
  | _, _ => opened

/-- A call of a session. -/
def Session.step (c : Call) : Exec Session Thrown Undefined Unit := fun s =>
  match c.run s.engine with
  | .ok _ t => .ok () ⟨t, c.2.openedAfter true s.opened⟩
  | .threw e t => .threw e ⟨t, c.2.openedAfter false s.opened⟩
  | .undefined u => .undefined u

theorem Session.post_step {Q : Session → Prop} {c : Call} {s : Session}
    (hrun : (c.run s.engine).Post (fun _ t => Q ⟨t, c.2.openedAfter true s.opened⟩)
      fun _ t => Q ⟨t, c.2.openedAfter false s.opened⟩) :
    (Session.step c s).Post (fun _ => Q) fun _ => Q := by
  rw [Session.step]
  cases hr : c.run s.engine with
  | ok a t =>
    rw [hr] at hrun
    exact hrun
  | threw e t =>
    rw [hr] at hrun
    exact hrun
  | undefined u => trivial

/-- Whatever `Engine::saveSet` writes, it writes to the path. -/
def EngineState.SavesTo (s : EngineState) (path : String) : Prop :=
  ∀ h t, (Engine.saveSet h s).final? = some t →
    t.written = s.written ∨ ∃ text, t.written = s.written ++ [(path, text)]

/-- `Engine::getCurrentFilePath` returns the path. -/
def EngineState.ShowsPath (s : EngineState) (path : String) : Prop :=
  ∀ h, ∃ t, Engine.getCurrentFilePath h s = .ok path t

/-- Saving goes to the set that is open, and its path is the one that is shown. -/
def Session.Consistent (s : Session) : Prop :=
  ∀ path, s.opened = some path → s.engine.SavesTo path ∧ s.engine.ShowsPath path

/-- The calls that keep the paths together. -/
def Session.Admits (c : Call) (s : Session) : Prop :=
  match c.2 with
  | .newSet .. => True
  | .closeSet => True
  | .saveSet => True
  | .openSet path => Opens c.1 path s.engine → path = "" ∧ s.engine.filePath = ""
  | .saveSetAs path =>
    if JsonSave.canSave c.1 path (c.1.dump 4 s.engine.document) then path = ""
    else path = s.engine.filePath
  | _ => False

/-- The invariant of the sessions: the only path that can be open is the empty one. -/
def Session.Invariant (s : Session) : Prop :=
  s.engine.WellFormed ∧ (s.opened = none ∨ s.opened = some "" ∧ s.engine.filePath = "")

/-! ### Every session is consistent -/

theorem Engine.saveSet_post {s : EngineState} (hs : s.WellFormed) (h : Host) :
    (Engine.saveSet h s).Post (fun _ t => t.filePath = s.filePath ∧
        (t.written = s.written ∨ ∃ text, t.written = s.written ++ [(s.filePath, text)]))
      fun _ t => t.filePath = s.filePath ∧
        (t.written = s.written ∨ ∃ text, t.written = s.written ++ [(s.filePath, text)]) := by
  change ((Set.saveSetAs h s.filePath s).bind _).Post _ _
  exact ((Set.saveSetAs_post hs h s.filePath).mono (fun _ _ ht => ⟨ht.2.1, .inr ht.2.2⟩)
    fun _ _ ht => ht.2).bind fun _ _ ht => ht

theorem EngineState.savesTo_filePath {s : EngineState} (hs : s.WellFormed) :
    s.SavesTo s.filePath := by
  intro h t ht
  exact (((Engine.saveSet_post hs h).mono (fun _ _ h => h.2) fun _ _ h => h.2).of_final?
    (I := fun t => t.written = s.written ∨ ∃ text, t.written = s.written ++ [(s.filePath, text)])) ht

/-- Every access to the engine properties resets the path that is shown. -/
theorem EngineState.showsPath_iff (s : EngineState) (path : String) :
    s.ShowsPath path ↔ path = "" := by
  constructor
  · intro hshows
    obtain ⟨t, ht⟩ := hshows Host.plain
    exact (Outcome.ok.inj ht).1.symm
  · rintro rfl h
    exact ⟨_, rfl⟩

theorem Command.saveSetAs_post {s : EngineState} (hs : s.WellFormed) (h : Host) (path : String) :
    (Command.run h (.saveSetAs path) s).Post
      (fun _ t => JsonSave.canSave h path (h.dump 4 s.document) = true ∧ t.filePath = path)
      fun _ t => JsonSave.canSave h path (h.dump 4 s.document) = false ∧ t.filePath = path := by
  change (((Set.saveSetAs h path s).bind _).bind _).Post _ _
  have hsave := Set.saveSetAs_post hs h path
  cases hr : Set.saveSetAs h path s with
  | ok _ t =>
    rw [hr] at hsave
    exact ⟨hsave.1, hsave.2.1⟩
  | threw e t =>
    rw [hr] at hsave
    exact ⟨hsave.1, hsave.2.1⟩
  | undefined u => trivial

theorem Session.Invariant.consistent {s : Session} (hs : s.Invariant) : s.Consistent := by
  intro path hpath
  rcases hs.2 with hnone | ⟨hopened, hfile⟩
  · rw [hnone] at hpath
    cases hpath
  · rw [hopened] at hpath
    obtain rfl := Option.some.inj hpath
    refine ⟨?_, (s.engine.showsPath_iff "").mpr rfl⟩
    have hsaves := EngineState.savesTo_filePath hs.1
    rw [hfile] at hsaves
    exact hsaves

/-- An admitted call keeps the invariant. -/
theorem Session.invariant_step (c : Call) (s : Session) (hc : Session.Admits c s)
    (hs : s.Invariant) : (Session.step c s).Post (fun _ => Session.Invariant)
      fun _ => Session.Invariant := by
  obtain ⟨h, c⟩ := c
  refine Session.post_step (((c.keeps_wellFormed h _ hs.1).and ?_).mono
    (fun _ _ ht => ⟨ht.1, ht.2⟩) fun _ _ ht => ⟨ht.1, ht.2⟩)
  -- The path that was open stays what it was as long as `Set::filePath` does.
  have hkept : ∀ t : EngineState, t.filePath = s.engine.filePath →
      (s.opened = none ∨ s.opened = some "" ∧ t.filePath = "") := by
    intro t ht
    rw [ht]
    exact hs.2
  cases c with
  | newSet width height layers => exact .of_forall (fun _ _ => .inl rfl) fun _ _ => .inl rfl
  | closeSet => exact .of_forall (fun _ _ => .inl rfl) fun _ _ => .inl rfl
  | saveSet =>
    change ((Engine.saveSet h s.engine).bind _).Post _ _
    exact ((Engine.saveSet_post hs.1 h).mono (fun _ t ht => hkept t ht.1)
      fun _ t ht => hkept t ht.1).bind fun _ _ ht => ht
  | openSet path =>
    change ((Engine.openSet h path s.engine).bind _).Post _ _
    refine ((Engine.openSet_post hs.1 h path).mono (fun _ _ ht => ht)
      fun _ t ht => hkept t ht).bind fun _ t ⟨hopens, ht⟩ => ?_
    obtain ⟨rfl, hfile⟩ := hc hopens
    exact .inr ⟨rfl, ht.trans hfile⟩
  | saveSetAs path =>
    have hpath : if JsonSave.canSave h path (h.dump 4 s.engine.document) then path = ""
        else path = s.engine.filePath := hc
    refine (Command.saveSetAs_post hs.1 h path).mono (fun _ t ht => ?_) fun _ t ht => ?_
    · rw [if_pos ht.1] at hpath
      obtain rfl := hpath
      exact .inr ⟨rfl, ht.2⟩
    · rw [if_neg (by simp [ht.1])] at hpath
      exact hkept t (ht.2.trans hpath)
  | _ => exact hc.elim

/-- In every session of admitted calls saving goes to the set that is open, and a call of
`saveSetAs` that throws leaves the paths alone. -/
theorem session_consistent {s : Session}
    (hs : Reaches Session.step Session.Admits Session.init s) :
    s.Consistent ∧ ∀ h path e t, Session.Admits (h, .saveSetAs path) s →
      Session.step (h, .saveSetAs path) s = .threw e t →
        t.engine.filePath = s.engine.filePath ∧ t.opened = s.opened ∧
          ∀ shown, t.engine.ShowsPath shown ↔ s.engine.ShowsPath shown := by
  have hinv : s.Invariant := Reaches.invariant Session.invariant_step
    ⟨EngineState.wellFormed_init, .inl rfl⟩ hs
  refine ⟨hinv.consistent, fun h path e t hadmits hrun => ?_⟩
  have hpath : if JsonSave.canSave h path (h.dump 4 s.engine.document) then path = ""
      else path = s.engine.filePath := hadmits
  have hpost := Command.saveSetAs_post hinv.1 h path
  rw [Session.step] at hrun
  cases hr : Call.run (h, .saveSetAs path) s.engine with
  | ok a u =>
    rw [hr] at hrun
    cases hrun
  | threw e' u =>
    rw [hr] at hrun
    obtain ⟨-, rfl⟩ := Outcome.threw.inj hrun
    have hr : Command.run h (.saveSetAs path) s.engine = .threw e' u := hr
    rw [hr] at hpost
    obtain ⟨hfails, hfile⟩ := hpost
    rw [if_neg (by simp [hfails])] at hpath
    refine ⟨hfile.trans hpath, rfl, fun shown => ?_⟩
    rw [EngineState.showsPath_iff, EngineState.showsPath_iff]
  | undefined u =>
    rw [hr] at hrun
    cases hrun

/-- A set saved under the empty path is saved and shown under it. -/
theorem session_consistent_empty : ∃ s : Session,
    Reaches Session.step Session.Admits Session.init s ∧ s.opened = some "" ∧ s.Consistent := by
  have hs : Reaches Session.step Session.Admits Session.init _ :=
    .step (Host.plain, .saveSetAs "") .refl (show ("" : String) = "" from rfl) rfl
  exact ⟨_, hs, rfl, (session_consistent hs).1⟩

/-- After `a.json` has been saved and `b.json` opened, saving writes to `a.json`, and no path is
shown. -/
theorem session_consistent_second : ∃ s : Session,
    Reaches Session.step (fun _ _ => True) Session.init s ∧ s.opened = some "b.json" ∧
      (∃ b t, Engine.saveSet Host.plain s.engine = .ok b t ∧
        t.written.map Prod.fst = s.engine.written.map Prod.fst ++ ["a.json"]) ∧
      s.engine.ShowsPath "" ∧ ¬ s.Consistent := by
  obtain ⟨s, hs, hopened, hsave⟩ : ∃ s : Session,
      Reaches Session.step (fun _ _ => True) Session.init s ∧ s.opened = some "b.json" ∧
        (Engine.saveSet Host.plain s.engine).returns (fun _ t => decide
          (t.written.map Prod.fst = s.engine.written.map Prod.fst ++ ["a.json"])) = true :=
    exists_reaches [(Host.plain, .saveSetAs "a.json"), (.withFile "null" .null, .openSet "b.json")]
      (by decide +kernel)
  obtain ⟨b, t, ht, hwritten⟩ := Outcome.exists_of_returns hsave
  refine ⟨s, hs, hopened, ⟨b, t, ht, of_decide_eq_true hwritten⟩,
    (s.engine.showsPath_iff "").mpr rfl, fun hc => ?_⟩
  exact absurd ((s.engine.showsPath_iff _).mp (hc "b.json" hopened).2) (by decide)

end ArbutusEngine
