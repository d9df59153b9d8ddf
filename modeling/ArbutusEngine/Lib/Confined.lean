import ArbutusEngine.Lib.Exec
import Mathlib.Algebra.Group.End
import Mathlib.GroupTheory.Submonoid.Centralizer

/-!
# Programs that are confined to some actions

An action is a function of the state. A program is confined to a monoid `A` of actions, and blind to
a monoid `B`, when it leaves behind what some action of `A` makes of the state, and when running it
after an action of `B` comes to running it before. Two programs each of which is blind to what the
other is confined to can be run in either order, if the actions commute.

The predicate `I` is what the program relies on; it is kept.

## Main definitions

* `Outcome.mapState`: the outcome with its state changed.
* `Exec.Confined`: confined to `A` and blind to `B`, in states that satisfy `I`.
* `Exec.Independent`: programs that are confined to parts of their own.

## Main results

* `Exec.Confined.bind_of`, `Exec.Confined.bind`: the rules for programs.
* `Exec.Confined.comm`: either order.
* `Exec.Independent.forEach_returns_iff`, `Exec.Independent.forEach_perm`: any number of programs, in
  any order.
-/

namespace Outcome

variable {σ ε υ α β : Type}

/-- Change the state an outcome leaves behind. -/
def mapState (g : σ → σ) : Outcome σ ε υ α → Outcome σ ε υ α
  | ok a s => ok a (g s)
  | threw e s => threw e (g s)
  | undefined u => undefined u

@[simp] theorem mapState_ok (g : σ → σ) (a : α) (s : σ) :
    (ok a s : Outcome σ ε υ α).mapState g = ok a (g s) := rfl

@[simp] theorem mapState_threw (g : σ → σ) (e : ε) (s : σ) :
    (threw e s : Outcome σ ε υ α).mapState g = threw e (g s) := rfl

@[simp] theorem mapState_undefined (g : σ → σ) (u : υ) :
    (undefined u : Outcome σ ε υ α).mapState g = undefined u := rfl

theorem final?_mapState (g : σ → σ) (o : Outcome σ ε υ α) :
    (o.mapState g).final? = o.final?.map g := by
  cases o <;> rfl

end Outcome

namespace Exec

variable {σ ε υ α β : Type} {A B : Submonoid (Function.End σ)} {I J : σ → Prop}

/-- The state `t` is what some action of `A` makes of `s`. -/
def Acts (A : Submonoid (Function.End σ)) (s t : σ) : Prop := ∃ f ∈ A, f s = t

theorem Acts.refl (s : σ) : Acts A s s := ⟨1, A.one_mem, rfl⟩

theorem Acts.of_mem {f : Function.End σ} (hf : f ∈ A) (s : σ) : Acts A s (f s) := ⟨f, hf, rfl⟩

theorem Acts.trans {s t u : σ} (hst : Acts A s t) (htu : Acts A t u) : Acts A s u := by
  obtain ⟨f, hf, rfl⟩ := hst
  obtain ⟨g, hg, rfl⟩ := htu
  exact ⟨g * f, A.mul_mem hg hf, rfl⟩

/-- In states that satisfy `I` the program leaves behind a state that an action of `A` makes of the
first one, and that satisfies `I` as well; and it does not notice the actions of `B`. -/
structure Confined (A B : Submonoid (Function.End σ)) (I : σ → Prop) (x : Exec σ ε υ α) : Prop where
  acts : ∀ s, I s → (x s).Post (fun _ t => I t ∧ Acts A s t) fun _ t => I t ∧ Acts A s t
  blind : ∀ g ∈ B, ∀ s, I s → x (g s) = (x s).mapState g

namespace Confined

variable {x : Exec σ ε υ α} {f : α → Exec σ ε υ β}

theorem pure (a : α) : Confined A B I (pure a : Exec σ ε υ α) where
  acts s hs := ⟨hs, .refl s⟩
  blind _ _ _ _ := rfl

theorem throw (e : ε) : Confined A B I (throw e : Exec σ ε υ α) where
  acts s hs := ⟨hs, .refl s⟩
  blind _ _ _ _ := rfl

/-- Reading a part of the state that the actions of `B` leave alone. -/
theorem gets {p : σ → α} (hp : ∀ g ∈ B, ∀ s, I s → p (g s) = p s) :
    Confined A B I (gets p : Exec σ ε υ α) where
  acts s hs := ⟨hs, .refl s⟩
  blind g hg s hs := congrArg (fun a => Outcome.ok a (g s)) (hp g hg s hs)

/-- Dereferencing a pointer into such a part. -/
theorem deref (u : υ) {p : σ → Option α} (hp : ∀ g ∈ B, ∀ s, I s → p (g s) = p s) :
    Confined A B I (fun s => (ofOption u (p s) : Exec σ ε υ α) s) where
  acts s hs := by
    cases p s with
    | some a => exact ⟨hs, .refl s⟩
    | none => trivial
  blind g hg s hs := by
    simp only [hp g hg s hs]
    cases p s <;> rfl

/-- An action of `A` that commutes with those of `B`. -/
theorem modify {f : Function.End σ} (hf : f ∈ A) (hI : ∀ s, I s → I (f s))
    (hc : ∀ g ∈ B, ∀ s, f (g s) = g (f s)) : Confined A B I (modify f : Exec σ ε υ Unit) where
  acts s hs := ⟨hI s hs, .of_mem hf s⟩
  blind g hg s _ := congrArg (Outcome.ok ()) (hc g hg s)

/-- What the first program returns is known to satisfy `V`. -/
theorem bind_of {V : α → Prop} (hx : Confined A B I x)
    (hV : ∀ s, I s → (x s).Post (fun a _ => V a) fun _ _ => True)
    (hf : ∀ a, V a → Confined A B I (f a)) : Confined A B I (x >>= f) where
  acts s hs := by
    have hfirst : (x s).Post (fun a t => (I t ∧ Acts A s t) ∧ V a) fun _ t => I t ∧ Acts A s t :=
      ((hx.acts s hs).and (hV s hs)).mono (fun _ _ h => h) fun _ _ h => h.1
    refine hfirst.bind fun a t ⟨⟨ht, hst⟩, ha⟩ => ?_
    exact ((hf a ha).acts t ht).mono (fun _ u hu => ⟨hu.1, hst.trans hu.2⟩)
      fun _ u hu => ⟨hu.1, hst.trans hu.2⟩
  blind g hg s hs := by
    have hacts := hx.acts s hs
    have hval := hV s hs
    rw [bind_run, bind_run, hx.blind g hg s hs]
    revert hacts hval
    cases x s with
    | ok a t => exact fun hacts ha => (hf a ha).blind g hg t hacts.1
    | threw e t => exact fun _ _ => rfl
    | undefined u => exact fun _ _ => rfl

theorem bind (hx : Confined A B I x) (hf : ∀ a, Confined A B I (f a)) : Confined A B I (x >>= f) :=
  hx.bind_of (V := fun _ => True) (fun _ _ => .of_forall (fun _ _ => trivial) fun _ _ => trivial)
    fun a _ => hf a

theorem ite {c : Prop} [Decidable c] {y : Exec σ ε υ α} (hx : Confined A B I x)
    (hy : Confined A B I y) : Confined A B I (if c then x else y) := by
  split_ifs
  · exact hx
  · exact hy

theorem acts_of_final? (hx : Confined A B I x) {s t : σ} (hs : I s) (ht : (x s).final? = some t) :
    I t ∧ Acts A s t :=
  (hx.acts s hs).of_final? ht

/-- Two programs each of which is blind to what the other is confined to can be run in either order,
if the actions commute. -/
theorem comm {y : Exec σ ε υ β} (hx : Confined A B I x) (hy : Confined B A J y)
    (hAB : ∀ f ∈ A, ∀ g ∈ B, ∀ s, f (g s) = g (f s)) {s : σ} (hI : I s) (hJ : J s) :
    ((x s).final?.bind fun t => (y t).final?) = (y s).final?.bind fun t => (x t).final? := by
  have hfirst : ∀ f ∈ A, (y (f s)).final? = (y s).final?.map f := fun f hf =>
    (congrArg Outcome.final? (hy.blind f hf s hJ)).trans (Outcome.final?_mapState f _)
  have hsecond : ∀ g ∈ B, (x (g s)).final? = (x s).final?.map g := fun g hg =>
    (congrArg Outcome.final? (hx.blind g hg s hI)).trans (Outcome.final?_mapState g _)
  cases hxs : (x s).final? with
  | none =>
    cases hys : (y s).final? with
    | none => rfl
    | some u =>
      obtain ⟨-, g, hg, rfl⟩ := hy.acts_of_final? hJ hys
      rw [Option.bind_none, Option.bind_some, hsecond g hg, hxs]
      rfl
  | some t =>
    obtain ⟨-, f, hf, rfl⟩ := hx.acts_of_final? hI hxs
    rw [Option.bind_some, hfirst f hf]
    cases hys : (y s).final? with
    | none => rfl
    | some u =>
      obtain ⟨-, g, hg, rfl⟩ := hy.acts_of_final? hJ hys
      rw [Option.bind_some, hsecond g hg, hxs]
      exact congrArg some (hAB f hf g hg s)

end Confined

/-! ### Families of programs -/

/-- Each program of the family is confined to its own part of the state and blind to the parts of the
others; what one relies on is relied on by all. -/
structure Independent {ι : Type} (A : ι → Submonoid (Function.End σ)) (I : σ → Prop)
    (x : ι → Exec σ ε υ Unit) : Prop where
  acts : ∀ i s, I s → (x i s).Post (fun _ t => I t ∧ Acts (A i) s t) fun _ t => I t ∧ Acts (A i) s t
  blind : ∀ i j, i ≠ j → ∀ g ∈ A j, ∀ s, I s → x i (g s) = (x i s).mapState g
  comm : ∀ i j, i ≠ j → ∀ f ∈ A i, ∀ g ∈ A j, ∀ s, f (g s) = g (f s)

namespace Independent

variable {ι : Type} {A : ι → Submonoid (Function.End σ)} {x : ι → Exec σ ε υ Unit} {s t : σ}

theorem of_ok (hx : Independent A I x) (hs : I s) {i : ι} (ht : x i s = .ok () t) :
    I t ∧ Acts (A i) s t := by
  have hpost := hx.acts i s hs
  rwa [ht] at hpost

/-- Whether a program returns does not depend on another having been run. -/
theorem returns_iff (hx : Independent A I x) (hs : I s) {i j : ι} (hij : i ≠ j)
    (ht : x i s = .ok () t) : (∃ u, x j t = .ok () u) ↔ ∃ u, x j s = .ok () u := by
  obtain ⟨-, f, hf, rfl⟩ := hx.of_ok hs ht
  have hrun : x j (f s) = (x j s).mapState f := hx.blind j i hij.symm f hf s hs
  rw [hrun]
  constructor
  · rintro ⟨u, hu⟩
    cases hj : x j s with
    | ok a v => exact ⟨v, rfl⟩
    | threw e v => rw [hj] at hu; cases hu
    | undefined w => rw [hj] at hu; cases hu
  · rintro ⟨u, hu⟩
    exact ⟨f u, congrArg (Outcome.mapState f) hu⟩

/-- Two programs that are run one after the other can be run the other way round. -/
theorem swap (hx : Independent A I x) (hs : I s) {i j : ι} (hij : i ≠ j) {u : σ}
    (ht : x i s = .ok () t) (hu : x j t = .ok () u) : ∃ v, x j s = .ok () v ∧ x i v = .ok () u := by
  obtain ⟨v, hv⟩ := (hx.returns_iff hs hij ht).mp ⟨u, hu⟩
  obtain ⟨-, f, hf, rfl⟩ := hx.of_ok hs ht
  obtain ⟨-, g, hg, rfl⟩ := hx.of_ok hs hv
  have hj : Outcome.ok () u = .ok () (f (g s)) :=
    hu.symm.trans ((hx.blind j i hij.symm f hf s hs).trans (congrArg (Outcome.mapState f) hv))
  have hi : x i (g s) = .ok () (g (f s)) :=
    (hx.blind i j hij g hg s hs).trans (congrArg (Outcome.mapState g) ht)
  refine ⟨g s, hv, hi.trans ?_⟩
  rw [hj, hx.comm i j hij f hf g hg s]

/-- The programs of a list return one after the other when each of them returns alone. -/
theorem forEach_returns_iff (hx : Independent A I x) (hs : I s) {l : List ι} (hl : l.Nodup) :
    (∃ t, forEach l x s = .ok () t) ↔ ∀ i ∈ l, ∃ t, x i s = .ok () t := by
  induction l generalizing s with
  | nil => simp
  | cons i rest ih =>
    obtain ⟨hi, hrest⟩ := List.nodup_cons.mp hl
    rw [forEach_cons, List.forall_mem_cons, bind_run]
    constructor
    · rintro ⟨t, ht⟩
      obtain ⟨_, u, hu, hrun⟩ := Outcome.exists_of_bind_eq_ok ht
      refine ⟨⟨u, hu⟩, fun j hj => ?_⟩
      have hij : i ≠ j := fun heq => hi (heq ▸ hj)
      exact (hx.returns_iff hs hij hu).mp ((ih (hx.of_ok hs hu).1 hrest).mp ⟨t, hrun⟩ j hj)
    · rintro ⟨⟨u, hu⟩, hall⟩
      rw [hu, Outcome.bind_ok]
      refine (ih (hx.of_ok hs hu).1 hrest).mpr fun j hj => ?_
      have hij : i ≠ j := fun heq => hi (heq ▸ hj)
      exact (hx.returns_iff hs hij hu).mpr (hall j hj)

/-- The programs of a list can be run in any order. -/
theorem forEach_perm (hx : Independent A I x) (hs : I s) {l l' : List ι} (hperm : l.Perm l')
    (hl : l.Nodup) (ht : forEach l x s = .ok () t) : forEach l' x s = .ok () t := by
  induction hperm generalizing s with
  | nil => exact ht
  | cons i _ ih =>
    rw [forEach_cons, bind_run] at ht ⊢
    obtain ⟨_, u, hu, hrun⟩ := Outcome.exists_of_bind_eq_ok ht
    rw [hu, Outcome.bind_ok]
    exact ih (hx.of_ok hs hu).1 (List.nodup_cons.mp hl).2 hrun
  | swap i j rest =>
    have hij : j ≠ i := fun heq => (List.nodup_cons.mp hl).1 (heq ▸ List.mem_cons_self)
    rw [forEach_cons, bind_run] at ht
    obtain ⟨_, u, hu, hrun⟩ := Outcome.exists_of_bind_eq_ok ht
    rw [forEach_cons, bind_run] at hrun
    obtain ⟨_, v, hv, hrest⟩ := Outcome.exists_of_bind_eq_ok hrun
    obtain ⟨w, hw, hwv⟩ := hx.swap hs hij hu hv
    rw [forEach_cons, bind_run, hw, Outcome.bind_ok, forEach_cons, bind_run, hwv, Outcome.bind_ok]
    exact hrest
  | trans hfirst _ ih ih' => exact ih' hs (hfirst.nodup_iff.mp hl) (ih hs hl ht)

/-- Any program of a list can be the first one. -/
theorem forEach_first [DecidableEq ι] (hx : Independent A I x) (hs : I s) {l : List ι} (hl : l.Nodup)
    {i : ι} (hi : i ∈ l) (ht : forEach l x s = .ok () t) :
    ∃ u, x i s = .ok () u ∧ forEach (l.erase i) x u = .ok () t := by
  have hrun := hx.forEach_perm hs (List.perm_cons_erase hi) hl ht
  rw [forEach_cons, bind_run] at hrun
  obtain ⟨_, u, hu, hrest⟩ := Outcome.exists_of_bind_eq_ok hrun
  exact ⟨u, hu, hrest⟩

end Independent

/-- The actions of two monoids commute when their generators do. -/
theorem comm_of_closure {S T : Set (Function.End σ)}
    (hST : ∀ f ∈ S, ∀ g ∈ T, ∀ s, f (g s) = g (f s)) {f g : Function.End σ}
    (hf : f ∈ Submonoid.closure S) (hg : g ∈ Submonoid.closure T) (s : σ) : f (g s) = g (f s) := by
  have hT : Submonoid.closure T ≤ Submonoid.centralizer S := by
    refine Submonoid.closure_le.mpr fun g hg => ?_
    exact Submonoid.mem_centralizer_iff.mpr fun f hf => funext (hST f hf g hg)
  have hS : Submonoid.closure S ≤
      Submonoid.centralizer (Submonoid.closure T : Set (Function.End σ)) := by
    refine Submonoid.closure_le.mpr fun f hf => ?_
    refine Submonoid.mem_centralizer_iff.mpr fun g hg => ?_
    exact (Submonoid.mem_centralizer_iff.mp (hT hg) f hf).symm
  exact (congrFun (Submonoid.mem_centralizer_iff.mp (hS hf) g hg) s).symm

end Exec
