import ArbutusEngine.Lib.Exec

/-!
# Programs built from steps

A predicate on programs names the steps of a language; a program is built from them if it is put
together from steps and from programs that only look at the state. What the steps do to the state is
then shown for the steps alone: a reflexive and transitive relation between the states before and
after each step relates the states before and after every program built from them.

A run remembers the calls it is made of. When each call acts on a view of the state as a function
does, a run acts on it as the functions of its calls do, one after the other.

## Main definitions

* `Exec.Looks`: programs that leave the state as it is.
* `Exec.Built`: programs built from steps.
* `Exec.RunsTo`: runs, with their calls.

## Main results

* `Exec.Built.evolves`, `Exec.Built.keeps`, `Exec.Built.fixes`: from the steps to the programs.
* `Exec.RunsTo.follows`: a run follows a model.
-/

namespace Exec

variable {σ ε υ α β δ : Type}

/-! ### Programs that only look -/

/-- The program leaves the state as it is. -/
def Looks (x : Exec σ ε υ α) : Prop := ∀ s, (x s).Post (fun _ t => t = s) fun _ t => t = s

namespace Looks

theorem pure (a : α) : Looks (pure a : Exec σ ε υ α) := fun _ => rfl

theorem throw (e : ε) : Looks (throw e : Exec σ ε υ α) := fun _ => rfl

theorem gets (g : σ → α) : Looks (gets g : Exec σ ε υ α) := fun _ => rfl

theorem ofExcept (raise : δ → ε) (r : Except δ α) : Looks (ofExcept raise r : Exec σ ε υ α) := by
  cases r with
  | ok a => exact pure a
  | error e => exact throw (raise e)

theorem deref (u : υ) (g : σ → Option α) :
    Looks (fun s => (ofOption u (g s) : Exec σ ε υ α) s) := by
  intro s
  cases hg : g s with
  | some a => simp [hg]
  | none => simp [hg]

end Looks

/-! ### Programs built from steps -/

/-- The program is put together from steps and from programs that only look at the state. -/
inductive Built (B : Exec σ ε υ Unit → Prop) : {α : Type} → Exec σ ε υ α → Prop
  | basic {x : Exec σ ε υ Unit} (hx : B x) : Built B x
  | look {α : Type} {x : Exec σ ε υ α} (hx : Looks x) : Built B x
  | bind {α β : Type} {x : Exec σ ε υ α} {f : α → Exec σ ε υ β} (hx : Built B x)
      (hf : ∀ a, Built B (f a)) : Built B (x >>= f)

namespace Built

variable {B : Exec σ ε υ Unit → Prop} {x y : Exec σ ε υ α}

theorem pure (a : α) : Built B (pure a : Exec σ ε υ α) := .look (.pure a)

theorem throw (e : ε) : Built B (throw e : Exec σ ε υ α) := .look (.throw e)

theorem gets (g : σ → α) : Built B (gets g : Exec σ ε υ α) := .look (.gets g)

theorem ofExcept (raise : δ → ε) (r : Except δ α) :
    Built B (ofExcept raise r : Exec σ ε υ α) := .look (.ofExcept raise r)

theorem deref (u : υ) (g : σ → Option α) :
    Built B (fun s => (ofOption u (g s) : Exec σ ε υ α) s) := .look (.deref u g)

theorem ite {c : Prop} [Decidable c] (hx : Built B x) (hy : Built B y) :
    Built B (if c then x else y) := by
  split_ifs
  · exact hx
  · exact hy

theorem forEach {l : List δ} {body : δ → Exec σ ε υ Unit} (hb : ∀ a ∈ l, Built B (body a)) :
    Built B (forEach l body) := by
  induction l with
  | nil => exact pure ()
  | cons a rest ih =>
    exact .bind (hb a List.mem_cons_self) fun _ => ih fun b hb' => hb b (List.mem_cons_of_mem a hb')

/-- A relation between the states before and after every step relates those before and after the
program. -/
theorem evolves {R : σ → σ → Prop} (hrefl : ∀ s, R s s) (htrans : ∀ s t u, R s t → R t u → R s u)
    (hB : ∀ x, B x → ∀ s, (x s).Post (fun _ => R s) fun _ => R s) (hx : Built B x) (s : σ) :
    (x s).Post (fun _ => R s) fun _ => R s := by
  induction hx generalizing s with
  | basic hx => exact hB _ hx s
  | look hx => exact (hx s).mono (fun _ t ht => ht ▸ hrefl s) fun _ t ht => ht ▸ hrefl s
  | bind hx hf ih ih' =>
    refine (ih s).bind fun a t ht => ?_
    exact (ih' a t).mono (fun _ u hu => htrans s t u ht hu) fun _ u hu => htrans s t u ht hu

theorem keeps {I : σ → Prop} (hB : ∀ x, B x → Keeps I x) (hx : Built B x) : Keeps I x := by
  refine fun s hs => (hx.evolves (R := fun s t => I s → I t) (fun _ h => h)
    (fun _ _ _ hst htu h => htu (hst h)) (fun x hx s => ?_) s).mono (fun _ _ h => h hs) fun _ _ h => h hs
  by_cases h : I s
  · exact (hB x hx s h).mono (fun _ _ ht _ => ht) fun _ _ ht _ => ht
  · exact .of_forall (fun _ _ hs => absurd hs h) fun _ _ hs => absurd hs h

theorem fixes {γ : Type} {part : σ → γ} (hB : ∀ x, B x → Fixes part x) (hx : Built B x) :
    Fixes part x := fun o => hx.keeps fun x hx => hB x hx o

end Built

/-! ### Runs with their calls -/

variable {ι : Type} {step : ι → Exec σ ε υ Unit} {guard : ι → σ → Prop}

/-- The calls of the list, each admitted in the state it is made in and run to its end or to an
exception, lead from `s` to `t`. -/
inductive RunsTo (step : ι → Exec σ ε υ Unit) (guard : ι → σ → Prop) (s : σ) : List ι → σ → Prop
  | nil : RunsTo step guard s [] s
  | snoc {cs : List ι} {t u : σ} (c : ι) (h : RunsTo step guard s cs t) (hc : guard c t)
      (hu : (step c t).final? = some u) : RunsTo step guard s (cs ++ [c]) u

namespace RunsTo

variable {s t : σ} {cs : List ι}

theorem reaches (h : RunsTo step guard s cs t) : Reaches step guard s t := by
  induction h with
  | nil => exact .refl
  | snoc c _ hc hu ih => exact .step c ih hc hu

/-- A run that has been computed. -/
theorem of_runAll [∀ c s, Decidable (guard c s)] {cs cs' : List ι} {u : σ}
    (h : RunsTo step guard s cs t) (hu : runAll step guard cs' t = some u) :
    RunsTo step guard s (cs ++ cs') u := by
  induction cs' generalizing cs t with
  | nil => exact Option.some.inj hu ▸ (List.append_nil cs).symm ▸ h
  | cons c rest ih =>
    rw [runAll] at hu
    split_ifs at hu with hc
    obtain ⟨t', ht', hu⟩ := Option.bind_eq_some_iff.mp hu
    have hrest := ih (.snoc c h hc ht') hu
    rwa [List.append_assoc, List.singleton_append] at hrest

/-- When every call that is admitted acts on a view of the state as a function does, a run acts on
it as the functions of its calls do. -/
theorem follows {γ : Type} (view : σ → γ) (act : ι → γ → γ) {I : σ → Prop}
    (hI : ∀ c s, guard c s → I s → (step c s).Post (fun _ => I) fun _ => I)
    (hact : ∀ c s t, guard c s → I s → (step c s).final? = some t → view t = act c (view s))
    (hs : I s) (h : RunsTo step guard s cs t) :
    view t = cs.foldl (fun b c => act c b) (view s) := by
  induction h with
  | nil => rfl
  | snoc c h hc hu ih =>
    rw [List.foldl_append, ← ih]
    exact hact c _ _ hc (h.reaches.invariant hI hs) hu

end RunsTo

end Exec
