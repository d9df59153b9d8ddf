import Mathlib.Data.List.Basic
import Mathlib.Logic.Function.Basic

/-!
# Records and partial updates

A record is a type whose values are given by their fields, with a setter for each. A patch says for
some of the fields what they are to be, and updating a record by a patch sets these one after
another. The fields of the result do not depend on the order: they are those of the patch where it
says something, and the old ones elsewhere. Everything about sequences of updates follows from this,
because a record is determined by its fields.

## Main definitions

* `Patch`, `Patch.apply`, `Patch.orElse`, `Patch.Disjoint`.
* `Record`, `Record.assign`, `Record.update`.

## Main results

* `Record.fields_update`: the fields of a record that has been updated.
* `Record.update_update`, `Record.update_comm`, `Record.update_self`.
-/

variable {κ : Type} {V : κ → Type} {σ : Type}

/-! ### Patches -/

/-- New values for some of the fields. -/
abbrev Patch (V : κ → Type) : Type := ∀ k, Option (V k)

namespace Patch

variable {f g : Patch V}

/-- The values of the patch, and the old ones where it has none. -/
def apply (f : Patch V) (x : ∀ k, V k) : ∀ k, V k := fun k => (f k).getD (x k)

/-- The values of the first patch, and those of the second one where it has none. -/
def orElse (f g : Patch V) : Patch V := fun k => (f k).or (g k)

/-- No field has a value in both patches. -/
def Disjoint (f g : Patch V) : Prop := ∀ k, f k = none ∨ g k = none

/-- Applying two patches, the second one last. -/
theorem apply_apply (f g : Patch V) (x : ∀ k, V k) :
    g.apply (f.apply x) = (g.orElse f).apply x := by
  funext k
  rw [apply, apply, apply, orElse]
  cases g k <;> rfl

theorem orElse_comm (h : f.Disjoint g) : f.orElse g = g.orElse f := by
  funext k
  rw [orElse, orElse]
  rcases h k with hf | hg
  · rw [hf, Option.none_or, Option.or_none]
  · rw [hg, Option.none_or, Option.or_none]

theorem orElse_self (f : Patch V) : f.orElse f = f := funext fun _ => Option.or_self

end Patch

/-! ### Records -/

/-- A type whose values are given by their fields. -/
structure Record [DecidableEq κ] (V : κ → Type) (σ : Type) where
  fields : σ → ∀ k, V k
  set : (k : κ) → V k → σ → σ
  fields_injective : Function.Injective fields
  fields_set : ∀ k v s, fields (set k v s) = Function.update (fields s) k v

namespace Record

variable [DecidableEq κ] (r : Record V σ) {f g : Patch V} {ks : List κ}

/-- Set a field, if the patch has a value for it. -/
def assign (f : Patch V) (s : σ) (k : κ) : σ :=
  match f k with
  | some v => r.set k v s
  | none => s

/-- Set the fields of the list for which the patch has values, one after another. -/
def update (f : Patch V) (ks : List κ) (s : σ) : σ := ks.foldl (r.assign f) s

theorem fields_assign (f : Patch V) (s : σ) (k : κ) :
    r.fields (r.assign f s k) = Function.update (r.fields s) k ((f k).getD (r.fields s k)) := by
  rw [assign]
  cases f k with
  | some v => exact r.fields_set k v s
  | none => exact (Function.update_eq_self k _).symm

/-- A field of the list has the value of the patch, if there is one. -/
theorem fields_update_apply (f : Patch V) (ks : List κ) (s : σ) (k : κ) :
    r.fields (r.update f ks s) k = if k ∈ ks then f.apply (r.fields s) k else r.fields s k := by
  induction ks generalizing s with
  | nil => rw [if_neg List.not_mem_nil]; rfl
  | cons l ks ih =>
    change r.fields (r.update f ks (r.assign f s l)) k = _
    rw [ih, Patch.apply, fields_assign]
    by_cases hkl : k = l
    · subst hkl
      rw [Function.update_self, if_pos List.mem_cons_self, Patch.apply, ite_eq_right_iff]
      intro _
      cases f k <;> rfl
    · rw [Function.update_of_ne hkl, Patch.apply]
      simp only [List.mem_cons, hkl, false_or]

/-- When all fields are in the list, the patch is applied to the fields. -/
theorem fields_update (hks : ∀ k, k ∈ ks) (f : Patch V) (s : σ) :
    r.fields (r.update f ks s) = f.apply (r.fields s) := by
  funext k
  rw [fields_update_apply, if_pos (hks k)]

/-- Two updates make one, in which the later patch comes first. -/
theorem update_update (hks : ∀ k, k ∈ ks) (f g : Patch V) (s : σ) :
    r.update g ks (r.update f ks s) = r.update (g.orElse f) ks s := by
  apply r.fields_injective
  rw [r.fields_update hks, r.fields_update hks, r.fields_update hks, Patch.apply_apply]

/-- Updates by patches of different fields can be made in either order. -/
theorem update_comm (hks : ∀ k, k ∈ ks) (h : f.Disjoint g) (s : σ) :
    r.update g ks (r.update f ks s) = r.update f ks (r.update g ks s) := by
  rw [r.update_update hks, r.update_update hks, Patch.orElse_comm h]

/-- An update that is made twice is made once. -/
theorem update_self (hks : ∀ k, k ∈ ks) (f : Patch V) (s : σ) :
    r.update f ks (r.update f ks s) = r.update f ks s := by
  rw [r.update_update hks, Patch.orElse_self]

end Record
