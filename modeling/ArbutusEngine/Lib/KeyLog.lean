import Mathlib.Data.Set.Card

/-!
# Logs of writes to keys

A log lists events in the order they happened. The event `(k, some a)` sets the key `k` to `a`, and
`(k, none)` clears it. What a log says about a key is what the latest event of the key has left, so
a log denotes a finite map, together with an order on its keys: that of their latest events.

## Main definitions

* `KeyLog.latest`: the value of a key.
* `KeyLog.standing`: the bindings of the finite map, in the order of the events that made them.

## Main results

* `KeyLog.standing_concat`: one more event.
* `KeyLog.nodup_standing`, `KeyLog.mem_standing`: the bindings are those of a map.
* `KeyLog.ncard_latest`: the number of keys that have a value.
-/

namespace KeyLog

variable {κ α : Type} [DecidableEq κ]

/-- The value of a key: what its latest event has left. -/
def latest (log : List (κ × Option α)) (k : κ) : Option α :=
  (log.reverse.find? fun e => e.1 = k).bind Prod.snd

/-- The bindings that no later event has replaced, in the order they were made. -/
def standing : List (κ × Option α) → List (κ × α)
  | [] => []
  | (k, v) :: log =>
    if ∃ e ∈ log, e.1 = k then standing log
    else (v.map fun a => (k, a)).toList ++ standing log

@[simp] theorem latest_nil (k : κ) : latest ([] : List (κ × Option α)) k = none := rfl

theorem latest_concat (log : List (κ × Option α)) (k k' : κ) (v : Option α) :
    latest (log ++ [(k, v)]) k' = if k = k' then v else latest log k' := by
  rw [latest, List.reverse_append, List.reverse_singleton, List.singleton_append,
    List.find?_cons]
  split_ifs with hk <;> simp [hk, latest]

/-- One more event removes the binding of its key and adds the new one, if there is one. -/
theorem standing_concat (log : List (κ × Option α)) (k : κ) (v : Option α) :
    standing (log ++ [(k, v)]) =
      (standing log).filter (fun e => e.1 ≠ k) ++ (v.map fun a => (k, a)).toList := by
  induction log with
  | nil => simp [standing]
  | cons e log ih =>
    obtain ⟨k', v'⟩ := e
    rw [List.cons_append, standing, standing, ih]
    by_cases hlog : ∃ e ∈ log, e.1 = k'
    · have hmore : ∃ e ∈ log ++ [(k, v)], e.1 = k' := by
        obtain ⟨e, he, hek⟩ := hlog
        exact ⟨e, List.mem_append_left _ he, hek⟩
      rw [if_pos hmore, if_pos hlog]
    · rw [if_neg hlog]
      by_cases hk : k = k'
      · rw [if_pos ⟨(k, v), List.mem_append_right _ (List.mem_singleton_self _), hk⟩, hk]
        cases v' <;> simp
      · have hnot : ¬ ∃ e ∈ log ++ [(k, v)], e.1 = k' := by
          rintro ⟨e, he, hek⟩
          rcases List.mem_append.mp he with he | he
          · exact hlog ⟨e, he, hek⟩
          · rw [List.mem_singleton.mp he] at hek
            exact hk hek
        rw [if_neg hnot]
        cases v' <;> simp [Ne.symm hk]

/-- No key has two bindings. -/
theorem nodup_standing (log : List (κ × Option α)) : ((standing log).map Prod.fst).Nodup := by
  induction log using List.reverseRecOn with
  | nil => exact List.nodup_nil
  | append_singleton log e ih =>
    obtain ⟨k, v⟩ := e
    rw [standing_concat, List.map_append]
    refine List.Nodup.append (ih.sublist (List.filter_sublist.map Prod.fst)) ?_ ?_
    · cases v <;> simp
    · intro k' hk' hk
      obtain ⟨e, he, rfl⟩ := List.mem_map.mp hk'
      have hne := (List.mem_filter.mp he).2
      cases v with
      | none => simp at hk
      | some a => simp_all

/-- When every event sets a key of its own, every key has a binding. -/
theorem map_fst_standing {log : List (κ × Option α)} (hlog : (log.map Prod.fst).Nodup)
    (hsome : ∀ e ∈ log, e.2.isSome = true) : (standing log).map Prod.fst = log.map Prod.fst := by
  induction log with
  | nil => rfl
  | cons e log ih =>
    obtain ⟨k, v⟩ := e
    obtain ⟨hk, hrest⟩ := List.nodup_cons.mp hlog
    obtain ⟨a, rfl⟩ := Option.isSome_iff_exists.mp (hsome (k, v) List.mem_cons_self)
    have hnot : ¬ ∃ e ∈ log, e.1 = k := fun ⟨e, he, hek⟩ => hk (List.mem_map.mpr ⟨e, he, hek⟩)
    rw [standing, if_neg hnot, Option.map_some, Option.toList_some, List.singleton_append,
      List.map_cons, List.map_cons, ih hrest fun e he => hsome e (List.mem_cons_of_mem _ he)]

/-- The bindings are those of the keys that have a value. -/
theorem mem_standing {log : List (κ × Option α)} {k : κ} {a : α} :
    (k, a) ∈ standing log ↔ latest log k = some a := by
  induction log using List.reverseRecOn with
  | nil => simp [standing]
  | append_singleton log e ih =>
    obtain ⟨k', v⟩ := e
    rw [standing_concat, latest_concat, List.mem_append, List.mem_filter, ih]
    by_cases hk : k' = k
    · subst hk
      cases v <;> simp [eq_comm]
    · cases v <;> simp [hk, Ne.symm hk]

/-- A binding was made by one of the events. -/
theorem mem_of_mem_standing {log : List (κ × Option α)} {e : κ × α} (he : e ∈ standing log) :
    (e.1, some e.2) ∈ log := by
  obtain ⟨event, hfind, hvalue⟩ := Option.bind_eq_some_iff.mp (mem_standing.mp he)
  have hkey : event.1 = e.1 := by simpa using List.find?_some hfind
  rw [← hkey, ← hvalue]
  exact List.mem_reverse.mp (List.mem_of_find?_eq_some hfind)

/-- The first binding of a key is its only one. -/
theorem find?_standing (log : List (κ × Option α)) (k : κ) :
    ((standing log).find? fun e => e.1 = k).map Prod.snd = latest log k := by
  cases hfind : (standing log).find? fun e => e.1 = k with
  | none =>
    cases hlatest : latest log k with
    | none => rfl
    | some a =>
      have hne := List.find?_eq_none.mp hfind (k, a) (mem_standing.mpr hlatest)
      exact absurd (decide_eq_true rfl) hne
  | some e =>
    have he : e.1 = k := by simpa using List.find?_some hfind
    have hmem := List.mem_of_find?_eq_some hfind
    rw [← he]
    exact (mem_standing.mp hmem).symm

theorem eraseP_congr {α : Type} {p q : α → Bool} {l : List α}
    (h : ∀ x ∈ l, p x = q x) : l.eraseP p = l.eraseP q := by
  induction l with
  | nil => rfl
  | cons x l ih =>
    rw [List.eraseP_cons, List.eraseP_cons, h x List.mem_cons_self,
      ih fun y hy => h y (List.mem_cons_of_mem x hy)]

/-- Removing the first binding of a key removes the key. -/
theorem eraseP_standing (log : List (κ × Option α)) (k : κ) :
    (standing log).eraseP (fun e => e.1 = k) = (standing log).filter fun e => e.1 ≠ k := by
  have hnodup := nodup_standing log
  revert hnodup
  generalize standing log = l
  intro hnodup
  induction l with
  | nil => rfl
  | cons e l ih =>
    obtain ⟨hnotMem, hl⟩ := List.nodup_cons.mp hnodup
    by_cases he : e.1 = k
    · have hall : ∀ e' ∈ l, decide (e'.1 ≠ k) = true := by
        intro e' he'
        refine decide_eq_true fun hk => hnotMem ?_
        rw [he, ← hk]
        exact List.mem_map_of_mem he'
      rw [List.eraseP_cons_of_pos (by simpa using he), List.filter_cons_of_neg (by simpa using he),
        List.filter_eq_self.mpr hall]
    · rw [List.eraseP_cons_of_neg (by simpa using he), List.filter_cons_of_pos (by simpa using he),
        ih hl]

/-- The keys of a kind that have a value are as many as the bindings of such keys. -/
theorem ncard_latest (log : List (κ × Option α)) (p : κ → Prop) [DecidablePred p] :
    Set.ncard {k | p k ∧ latest log k ≠ none} = (standing log).countP fun e => p e.1 := by
  have hset : {k | p k ∧ latest log k ≠ none} =
      ↑(((standing log).filter fun e => p e.1).map Prod.fst).toFinset := by
    ext k
    simp only [Set.mem_ofPred_eq, List.coe_toFinset, List.mem_map, List.mem_filter,
      decide_eq_true_eq]
    constructor
    · rintro ⟨hk, hlatest⟩
      obtain ⟨a, ha⟩ := Option.ne_none_iff_exists'.mp hlatest
      exact ⟨(k, a), ⟨mem_standing.mpr ha, hk⟩, rfl⟩
    · rintro ⟨⟨k, a⟩, ⟨he, hk⟩, rfl⟩
      rw [mem_standing.mp he]
      exact ⟨hk, Option.some_ne_none a⟩
  have hnodup := (nodup_standing log).sublist
    ((List.filter_sublist (p := fun e : κ × α => decide (p e.1))).map Prod.fst)
  rw [hset, Set.ncard_coe_finset, List.toFinset_card_of_nodup hnodup, List.length_map,
    List.countP_eq_length_filter]

theorem length_standing_le (log : List (κ × Option α)) : (standing log).length ≤ log.length := by
  induction log with
  | nil => rfl
  | cons e log ih =>
    obtain ⟨k, v⟩ := e
    rw [standing]
    split_ifs
    · exact Nat.le_succ_of_le ih
    · cases v <;> simp <;> omega

/-- When no event is without a binding, every event is about a key of its own. -/
theorem nodup_of_length_standing {log : List (κ × Option α)}
    (hlog : (standing log).length = log.length) : (log.map Prod.fst).Nodup := by
  induction log with
  | nil => exact List.nodup_nil
  | cons e log ih =>
    obtain ⟨k, v⟩ := e
    have hle := length_standing_le log
    rw [standing] at hlog
    split_ifs at hlog with hk
    · rw [List.length_cons] at hlog
      omega
    · refine List.nodup_cons.mpr ⟨fun hmem => ?_, ih ?_⟩
      · obtain ⟨e, he, hek⟩ := List.mem_map.mp hmem
        exact hk ⟨e, he, hek⟩
      · cases v <;> simp at hlog <;> omega

theorem length_standing (log : List (κ × Option α)) :
    (standing log).length = Set.ncard {k | latest log k ≠ none} := by
  have hcount := ncard_latest log fun _ => True
  simp only [true_and, decide_true, List.countP_true] at hcount
  exact hcount.symm

end KeyLog
