import Mathlib.Data.List.Forall2
import Mathlib.Order.Basic

/-!
# Programs with state, exceptions and undefined behaviour

A program of type `Exec σ ε υ α` runs on a state of type `σ` and has one of three outcomes: it
returns a value and a state, it throws an exception of type `ε`, or its behaviour is undefined,
for a reason of type `υ`. As in C++, an exception does not undo the writes made before it: the
outcome `threw` carries the state the exception leaves behind. An undefined outcome carries no
state, because nothing may be said about what follows it.

The rules of this file are of two kinds. `Outcome.Post` states what holds of a single outcome, and
composes along `bind` and along the loops `forEach` and `iterate`; a program whose behaviour is
undefined satisfies every such statement. `Exec.Keeps` says that a predicate of the state survives
a program, whether it returns or throws, and `Exec.Fixes` that a part of the state does not change.

## Main definitions

* `Outcome`, `Exec` and its monad structure, `Exec.throw`, `Exec.undefined`, `Exec.modify`.
* `Exec.forEach`, `Exec.iterate`: loops over a list and with a fixed number of turns.
* `Exec.collect`: what a loop has gathered when it stops, and the exception that stopped it.
* `Exec.alongside`: a program beside a value that it does not see.
* `Outcome.Post`, `Exec.Keeps`: postconditions and preserved predicates.
* `Exec.NoThrow`: a program that throws nothing.
* `Exec.Fixes`: a program that leaves a part of the state alone.
* `Exec.Reaches`: the states that a sequence of programs passes through, and `Exec.runAll`, which
  computes one.
* `Exec.Along`: what relates each call of a list to the states before and after it.

## Main results

* `Outcome.exists_of_bind_eq_ok`, `Outcome.of_bind_eq_threw`: where a sequence returns or throws.
* `Outcome.Post.bind`, `Exec.Keeps.bind`, `Exec.Keeps.forEach`, `Exec.Keeps.iterate`.
* `Exec.Fixes.keeps`: what leaves a part alone keeps every predicate of that part.
* `Exec.forEach_eq_collect`: a loop that reads an entry and then stores what it has read.
* `Exec.Reaches.invariant`: a predicate kept by every guarded step holds along every run.
* `Exec.along_congr`: two relations that agree where the first one leads hold along the same runs.
* `Exec.along_iff_forall`: a relation that depends on the calls alone.
-/

/-- What a program has come to: a value, an exception, or undefined behaviour. -/
inductive Outcome (σ ε υ α : Type) where
  | ok (a : α) (s : σ)
  | threw (e : ε) (s : σ)
  | undefined (u : υ)
  deriving DecidableEq

/-- A program on the state `σ`. -/
def Exec (σ ε υ α : Type) : Type := σ → Outcome σ ε υ α

namespace Outcome

variable {σ ε υ α β γ : Type}

/-- Continue after a returned value; exceptions and undefined behaviour propagate. -/
def bind : Outcome σ ε υ α → (α → σ → Outcome σ ε υ β) → Outcome σ ε υ β
  | ok a s, f => f a s
  | threw e s, _ => threw e s
  | undefined u, _ => undefined u

@[simp] theorem bind_ok (a : α) (s : σ) (f : α → σ → Outcome σ ε υ β) :
    (ok a s).bind f = f a s := rfl

@[simp] theorem bind_threw (e : ε) (s : σ) (f : α → σ → Outcome σ ε υ β) :
    (threw e s).bind f = threw e s := rfl

@[simp] theorem bind_undefined (u : υ) (f : α → σ → Outcome σ ε υ β) :
    (undefined u : Outcome σ ε υ α).bind f = undefined u := rfl

theorem exists_of_bind_eq_ok {o : Outcome σ ε υ α} {f : α → σ → Outcome σ ε υ β} {b : β} {s : σ}
    (h : o.bind f = ok b s) : ∃ a t, o = ok a t ∧ f a t = ok b s := by
  cases o with
  | ok a t => exact ⟨a, t, rfl, h⟩
  | threw e t => cases h
  | undefined u => cases h

/-- A sequence throws where its first part does, or where the second does after the first. -/
theorem of_bind_eq_threw {o : Outcome σ ε υ α} {f : α → σ → Outcome σ ε υ β} {e : ε} {s : σ}
    (h : o.bind f = threw e s) : o = threw e s ∨ ∃ a t, o = ok a t ∧ f a t = threw e s := by
  cases o with
  | ok a t => exact .inr ⟨a, t, rfl, h⟩
  | threw e' t =>
    cases h
    exact .inl rfl
  | undefined u => cases h

/-- The state an outcome leaves behind, if it leaves one. -/
def final? : Outcome σ ε υ α → Option σ
  | ok _ s => some s
  | threw _ s => some s
  | undefined _ => none

@[simp] theorem final?_ok (a : α) (s : σ) : (ok a s : Outcome σ ε υ α).final? = some s := rfl

@[simp] theorem final?_threw (e : ε) (s : σ) :
    (threw e s : Outcome σ ε υ α).final? = some s := rfl

@[simp] theorem final?_undefined (u : υ) : (undefined u : Outcome σ ε υ α).final? = none := rfl

/-- The outcome is a return, of a value and a state that satisfy the test. -/
def returns (P : α → σ → Bool) : Outcome σ ε υ α → Bool
  | ok a s => P a s
  | _ => false

theorem exists_of_returns {o : Outcome σ ε υ α} {P : α → σ → Bool} (h : o.returns P = true) :
    ∃ a s, o = ok a s ∧ P a s = true := by
  cases o with
  | ok a s => exact ⟨a, s, rfl, h⟩
  | threw e s => exact Bool.noConfusion h
  | undefined u => exact Bool.noConfusion h

/-- The outcome is an exception, which satisfies the test together with the state it leaves. -/
def throws (P : ε → σ → Bool) : Outcome σ ε υ α → Bool
  | threw e s => P e s
  | _ => false

theorem exists_of_throws {o : Outcome σ ε υ α} {P : ε → σ → Bool} (h : o.throws P = true) :
    ∃ e s, o = threw e s ∧ P e s = true := by
  cases o with
  | ok a s => exact Bool.noConfusion h
  | threw e s => exact ⟨e, s, rfl, h⟩
  | undefined u => exact Bool.noConfusion h

/-- Return, or throw the exception if there is one. -/
def raiseIf (e : Option ε) (s : σ) : Outcome σ ε υ Unit :=
  match e with
  | some e => threw e s
  | none => ok () s

@[simp] theorem raiseIf_none (s : σ) : (raiseIf none s : Outcome σ ε υ Unit) = ok () s := rfl

@[simp] theorem raiseIf_some (e : ε) (s : σ) :
    (raiseIf (some e) s : Outcome σ ε υ Unit) = threw e s := rfl

theorem raiseIf_eq_threw_iff {r : Option ε} {e : ε} {s t : σ} :
    (raiseIf r s : Outcome σ ε υ Unit) = threw e t ↔ r = some e ∧ s = t := by
  cases r <;> simp

theorem raiseIf_eq_ok_iff {r : Option ε} {s t : σ} :
    (raiseIf r s : Outcome σ ε υ Unit) = ok () t ↔ r = none ∧ s = t := by
  cases r <;> simp

theorem ite_undefined_eq_threw_iff {c : Prop} [Decidable c] {u : υ} {o : Outcome σ ε υ α} {e : ε}
    {s : σ} : (if c then undefined u else o) = threw e s ↔ ¬c ∧ o = threw e s := by
  split_ifs with hc <;> simp [hc]

theorem ite_undefined_eq_ok_iff {c : Prop} [Decidable c] {u : υ} {o : Outcome σ ε υ α} {a : α}
    {s : σ} : (if c then undefined u else o) = ok a s ↔ ¬c ∧ o = ok a s := by
  split_ifs with hc <;> simp [hc]

/-- The postcondition `Q` holds of a returned value and `E` of an exception. Undefined behaviour
satisfies every postcondition. -/
def Post (Q : α → σ → Prop) (E : ε → σ → Prop) : Outcome σ ε υ α → Prop
  | ok a s => Q a s
  | threw e s => E e s
  | undefined _ => True

section Post

variable {Q Q' : α → σ → Prop} {E E' : ε → σ → Prop} {R : β → σ → Prop}

@[simp] theorem post_ok {a : α} {s : σ} : (ok a s : Outcome σ ε υ α).Post Q E ↔ Q a s := Iff.rfl

@[simp] theorem post_threw {e : ε} {s : σ} :
    (threw e s : Outcome σ ε υ α).Post Q E ↔ E e s := Iff.rfl

@[simp] theorem post_undefined {u : υ} : (undefined u : Outcome σ ε υ α).Post Q E := trivial

theorem Post.mono {o : Outcome σ ε υ α} (ho : o.Post Q E) (hQ : ∀ a s, Q a s → Q' a s)
    (hE : ∀ e s, E e s → E' e s) : o.Post Q' E' := by
  cases o with
  | ok a s => exact hQ a s ho
  | threw e s => exact hE e s ho
  | undefined u => trivial

theorem Post.of_forall {o : Outcome σ ε υ α} (hQ : ∀ a s, Q a s) (hE : ∀ e s, E e s) :
    o.Post Q E := by
  cases o with
  | ok a s => exact hQ a s
  | threw e s => exact hE e s
  | undefined u => trivial

theorem Post.bind {o : Outcome σ ε υ α} {f : α → σ → Outcome σ ε υ β} (ho : o.Post Q E)
    (hf : ∀ a s, Q a s → (f a s).Post R E) : (o.bind f).Post R E := by
  cases o with
  | ok a s => exact hf a s ho
  | threw e s => exact ho
  | undefined u => trivial

theorem Post.and {o : Outcome σ ε υ α} (ho : o.Post Q E) (ho' : o.Post Q' E') :
    o.Post (fun a s => Q a s ∧ Q' a s) fun e s => E e s ∧ E' e s := by
  cases o with
  | ok a s => exact ⟨ho, ho'⟩
  | threw e s => exact ⟨ho, ho'⟩
  | undefined u => trivial

/-- A postcondition of the state alone holds of the final state. -/
theorem Post.of_final? {o : Outcome σ ε υ α} {I : σ → Prop} {s : σ}
    (ho : o.Post (fun _ => I) fun _ => I) (hs : o.final? = some s) : I s := by
  cases o with
  | ok a t => exact Option.some.inj hs ▸ ho
  | threw e t => exact Option.some.inj hs ▸ ho
  | undefined u => exact absurd hs (Option.some_ne_none s).symm

/-- A predicate of the final state, if there is one, is a postcondition. -/
theorem Post.of_forall_final? {o : Outcome σ ε υ α} {I : σ → Prop}
    (ho : ∀ s, o.final? = some s → I s) : o.Post (fun _ => I) fun _ => I := by
  cases o with
  | ok a s => exact ho s rfl
  | threw e s => exact ho s rfl
  | undefined u => trivial

end Post

end Outcome

namespace Exec

variable {σ ε υ α β : Type}

instance : Monad (Exec σ ε υ) where
  pure a := fun s => .ok a s
  bind x f := fun s => (x s).bind fun a s' => f a s'

@[simp] theorem pure_run (a : α) (s : σ) : (pure a : Exec σ ε υ α) s = .ok a s := rfl

@[simp] theorem bind_run (x : Exec σ ε υ α) (f : α → Exec σ ε υ β) (s : σ) :
    (x >>= f) s = (x s).bind fun a s' => f a s' := rfl

instance : LawfulMonad (Exec σ ε υ) := LawfulMonad.mk' _
  (fun x => funext fun s => by
    change (x s).bind _ = _
    cases x s <;> rfl)
  (fun _ _ => rfl)
  (fun x f g => funext fun s => by
    change ((x s).bind _).bind _ = (x s).bind _
    cases x s <;> rfl)

@[simp] theorem map_run (x : Exec σ ε υ α) (f : α → β) (s : σ) :
    (f <$> x) s = (x s).bind fun a s' => .ok (f a) s' := rfl

/-- Throw an exception. -/
def throw (e : ε) : Exec σ ε υ α := fun s => .threw e s

/-- Undefined behaviour. -/
def undefined (u : υ) : Exec σ ε υ α := fun _ => .undefined u

/-- The state, or a part of it. -/
def gets (f : σ → α) : Exec σ ε υ α := fun s => .ok (f s) s

/-- Change the state. -/
def modify (f : σ → σ) : Exec σ ε υ Unit := fun s => .ok () (f s)

/-- A result that may be an exception. -/
def ofExcept {δ : Type} (raise : δ → ε) : Except δ α → Exec σ ε υ α
  | .ok a => pure a
  | .error e => throw (raise e)

/-- The value behind a pointer or an iterator, undefined for the reason `u` where there is none. -/
def ofOption (u : υ) : Option α → Exec σ ε υ α
  | some a => pure a
  | none => undefined u

@[simp] theorem throw_run (e : ε) (s : σ) : (throw e : Exec σ ε υ α) s = .threw e s := rfl

@[simp] theorem undefined_run (u : υ) (s : σ) :
    (undefined u : Exec σ ε υ α) s = .undefined u := rfl

@[simp] theorem gets_run (f : σ → α) (s : σ) : (gets f : Exec σ ε υ α) s = .ok (f s) s := rfl

@[simp] theorem modify_run (f : σ → σ) (s : σ) :
    (modify f : Exec σ ε υ Unit) s = .ok () (f s) := rfl

@[simp] theorem ofExcept_ok {δ : Type} (raise : δ → ε) (a : α) :
    (ofExcept raise (.ok a) : Exec σ ε υ α) = pure a := rfl

@[simp] theorem ofExcept_error {δ : Type} (raise : δ → ε) (e : δ) :
    (ofExcept raise (.error e) : Exec σ ε υ α) = throw (raise e) := rfl

@[simp] theorem ofOption_some (u : υ) (a : α) : (ofOption u (some a) : Exec σ ε υ α) = pure a := rfl

@[simp] theorem ofOption_none (u : υ) : (ofOption u none : Exec σ ε υ α) = undefined u := rfl

/-- Run the body for every element of a list, in order. -/
def forEach (l : List α) (body : α → Exec σ ε υ Unit) : Exec σ ε υ Unit :=
  match l with
  | [] => pure ()
  | a :: l => do
    body a
    forEach l body

@[simp] theorem forEach_nil (body : α → Exec σ ε υ Unit) : forEach [] body = pure () := rfl

@[simp] theorem forEach_cons (a : α) (l : List α) (body : α → Exec σ ε υ Unit) :
    forEach (a :: l) body = (body a >>= fun _ => forEach l body) := rfl

theorem forEach_map {γ : Type} (f : γ → α) (body : α → Exec σ ε υ Unit) (l : List γ) :
    forEach (l.map f) body = forEach l fun c => body (f c) := by
  induction l with
  | nil => rfl
  | cons c rest ih => rw [List.map_cons, forEach_cons, forEach_cons, ih]

theorem forEach_congr {l : List α} {body body' : α → Exec σ ε υ Unit}
    (hb : ∀ a ∈ l, body a = body' a) : forEach l body = forEach l body' := by
  induction l with
  | nil => rfl
  | cons a rest ih =>
    obtain ⟨ha, hrest⟩ := List.forall_mem_cons.mp hb
    rw [forEach_cons, forEach_cons, ha, ih hrest]

/-- Run the body `n` times. -/
def iterate (n : ℕ) (body : Exec σ ε υ Unit) : Exec σ ε υ Unit :=
  match n with
  | 0 => pure ()
  | n + 1 => do
    body
    iterate n body

@[simp] theorem iterate_zero (body : Exec σ ε υ Unit) : iterate 0 body = pure () := rfl

@[simp] theorem iterate_succ (n : ℕ) (body : Exec σ ε υ Unit) :
    iterate (n + 1) body = (body >>= fun _ => iterate n body) := rfl

/-! ### Loops that store what they read -/

section collect

variable {dec : α → Option β × Option ε}

/-- A turn of the loop on the entry `a` yields at most one value and then throws, if `(dec a).2` is
an exception. The values of all turns up to the first exception, and that exception. -/
def collect (dec : α → Option β × Option ε) : List α → List β × Option ε
  | [] => ([], none)
  | a :: l =>
    match (dec a).2 with
    | some e => ((dec a).1.toList, some e)
    | none => ((dec a).1.toList ++ (collect dec l).1, (collect dec l).2)

/-- A loop whose turns store the value they yield stores the values up to the first exception, and
ends with that exception. The predicate `I` is what the turns rely on. -/
theorem forEach_eq_collect {body : α → Exec σ ε υ Unit} (push : σ → β → σ) (I : σ → Prop)
    (hpush : ∀ s b, I s → I (push s b)) (l : List α)
    (hbody : ∀ a ∈ l, ∀ s, I s →
      body a s = .raiseIf (dec a).2 ((dec a).1.toList.foldl push s)) :
    ∀ s, I s → forEach l body s = .raiseIf (collect dec l).2 ((collect dec l).1.foldl push s) := by
  induction l with
  | nil => exact fun _ _ => rfl
  | cons a l ih =>
    intro s hs
    have ih := ih fun b hb => hbody b (List.mem_cons_of_mem a hb)
    rw [forEach_cons, bind_run, hbody a List.mem_cons_self s hs, collect]
    cases he : (dec a).2 with
    | some e => rfl
    | none =>
      have hs' : I ((dec a).1.toList.foldl push s) := by
        cases (dec a).1 with
        | none => exact hs
        | some b => exact hpush s b hs
      simp only [Outcome.raiseIf_none, Outcome.bind_ok, ih _ hs', List.foldl_append]

theorem collect_snd_eq_none {l : List α} :
    (collect dec l).2 = none ↔ ∀ a ∈ l, (dec a).2 = none := by
  induction l with
  | nil => simp [collect]
  | cons a l ih =>
    cases he : (dec a).2 with
    | some e => simp [collect, he]
    | none => simp [collect, he, ih]

/-- The exception that stops a loop is that of some turn. -/
theorem exists_of_collect_snd {l : List α} {e : ε} (he : (collect dec l).2 = some e) :
    ∃ a ∈ l, (dec a).2 = some e := by
  induction l with
  | nil => cases he
  | cons a l ih =>
    cases hd : (dec a).2 with
    | some e' =>
      simp only [collect, hd] at he
      exact ⟨a, List.mem_cons_self, he ▸ hd⟩
    | none =>
      simp only [collect, hd] at he
      obtain ⟨b, hb, hbe⟩ := ih he
      exact ⟨b, List.mem_cons_of_mem a hb, hbe⟩

/-- A loop without an exception gathers the values of all its turns. -/
theorem collect_fst_of_forall {l : List α} (hl : ∀ a ∈ l, (dec a).2 = none) :
    (collect dec l).1 = l.filterMap fun a => (dec a).1 := by
  induction l with
  | nil => rfl
  | cons a l ih =>
    have ih := ih fun b hb => hl b (List.mem_cons_of_mem a hb)
    cases hv : (dec a).1 <;> simp [collect, hl a List.mem_cons_self, hv, ih]

/-- A loop over entries that are read as values known beforehand. -/
theorem collect_of_forall₂ {γ : Type} {g : γ → Option β} {l : List α} {l' : List γ}
    (hl : List.Forall₂ (fun a c => dec a = (g c, none)) l l') :
    collect dec l = (l'.filterMap g, none) := by
  induction hl with
  | nil => rfl
  | cons hac _ ih =>
    rw [collect, hac, ih]
    cases hg : g _ <;> simp [hg]

/-- A loop over entries that have been written from values. -/
theorem collect_map_of_forall {γ : Type} {f : γ → α} {g : γ → Option β} {l : List γ}
    (hl : ∀ c ∈ l, dec (f c) = (g c, none)) :
    collect dec (l.map f) = (l.filterMap g, none) :=
  collect_of_forall₂ (List.forall₂_map_left_iff.mpr (List.forall₂_same.mpr hl))

/-- A loop over entries that have been written from values, none of which is passed over. -/
theorem collect_map_of_forall_some {γ : Type} {f : γ → α} {g : γ → β} {l : List γ}
    (hl : ∀ c ∈ l, dec (f c) = (some (g c), none)) :
    collect dec (l.map f) = (l.map g, none) := by
  rw [collect_map_of_forall hl, ← List.filterMap_eq_map]
  rfl

/-- A predicate that every stored value keeps holds after all of them have been stored. -/
theorem foldl_push (push : σ → β → σ) (I : σ → Prop) (hpush : ∀ s b, I s → I (push s b))
    (l : List β) {s : σ} (hs : I s) : I (l.foldl push s) := by
  induction l generalizing s with
  | nil => exact hs
  | cons b l ih => exact ih (hpush s b hs)

/-- Every value gathered was yielded by some turn. -/
theorem exists_of_mem_collect {l : List α} {b : β} (hb : b ∈ (collect dec l).1) :
    ∃ a ∈ l, (dec a).1 = some b := by
  induction l with
  | nil => cases hb
  | cons a l ih =>
    cases he : (dec a).2 with
    | some e =>
      simp only [collect, he, Option.mem_toList] at hb
      exact ⟨a, List.mem_cons_self, hb⟩
    | none =>
      simp only [collect, he, List.mem_append, Option.mem_toList] at hb
      rcases hb with hb | hb
      · exact ⟨a, List.mem_cons_self, hb⟩
      · obtain ⟨c, hc, hcb⟩ := ih hb
        exact ⟨c, List.mem_cons_of_mem a hc, hcb⟩

end collect

/-! ### A component beside the state -/

/-- Run the program on the first component of a pair, and change the second one, which the program
does not see. -/
def alongside {γ : Type} (x : Exec σ ε υ α) (g : γ → γ) : Exec (σ × γ) ε υ α := fun s =>
  match x s.1 with
  | .ok a t => .ok a (t, g s.2)
  | .threw e t => .threw e (t, g s.2)
  | .undefined u => .undefined u

theorem alongside_post {γ : Type} {x : Exec σ ε υ α} {g : γ → γ} {I : σ → γ → Prop} {s : σ × γ}
    (hx : (x s.1).Post (fun _ t => I t (g s.2)) fun _ t => I t (g s.2)) :
    (alongside x g s).Post (fun _ t => I t.1 t.2) fun _ t => I t.1 t.2 := by
  rw [alongside]
  revert hx
  cases x s.1 with
  | ok a t => exact fun hx => hx
  | threw e t => exact fun hx => hx
  | undefined u => exact fun _ => trivial

/-! ### Predicates that a program keeps -/

/-- A loop with a fixed number of turns keeps what every turn keeps, and throws only what a turn
throws. -/
theorem iterate_post {I : σ → Prop} {E : ε → σ → Prop} {body : Exec σ ε υ Unit}
    (hb : ∀ s, I s → (body s).Post (fun _ => I) E) (n : ℕ) :
    ∀ s, I s → (iterate n body s).Post (fun _ => I) E := by
  induction n with
  | zero => exact fun _ hs => hs
  | succ n ih => exact fun s hs => (hb s hs).bind fun _ t ht => ih t ht

/-- A loop whose body needs something of its own element, and leaves alone what it needs of the
others. -/
theorem forEach_post_of_nodup {I : σ → Prop} {P : α → σ → Prop} {l : List α}
    {body : α → Exec σ ε υ Unit} (hl : l.Nodup)
    (hb : ∀ a s, I s → P a s →
      (body a s).Post (fun _ t => I t ∧ ∀ b ≠ a, P b s → P b t) fun _ => I)
    {s : σ} (hs : I s) (hP : ∀ a ∈ l, P a s) : (forEach l body s).Post (fun _ => I) fun _ => I := by
  induction l generalizing s with
  | nil => exact hs
  | cons a l ih =>
    obtain ⟨ha, hl⟩ := List.nodup_cons.mp hl
    refine (hb a s hs (hP a List.mem_cons_self)).bind fun _ t ht => ih hl ht.1 fun b hmem => ?_
    exact ht.2 b (fun heq => ha (heq ▸ hmem)) (hP b (List.mem_cons_of_mem a hmem))

/-- The predicate `I` of the state survives the program, whether it returns or throws. -/
def Keeps (I : σ → Prop) (x : Exec σ ε υ α) : Prop :=
  ∀ s, I s → (x s).Post (fun _ => I) fun _ => I

namespace Keeps

variable {I : σ → Prop} {x : Exec σ ε υ α} {f : α → Exec σ ε υ β}

theorem pure (a : α) : Keeps I (pure a : Exec σ ε υ α) := fun _ hs => hs

theorem throw (e : ε) : Keeps I (throw e : Exec σ ε υ α) := fun _ hs => hs

theorem undefined (u : υ) : Keeps I (undefined u : Exec σ ε υ α) := fun _ _ => trivial

theorem gets (g : σ → α) : Keeps I (gets g : Exec σ ε υ α) := fun _ hs => hs

theorem modify {g : σ → σ} (hg : ∀ s, I s → I (g s)) :
    Keeps I (modify g : Exec σ ε υ Unit) := fun s hs => hg s hs

theorem bind (hx : Keeps I x) (hf : ∀ a, Keeps I (f a)) : Keeps I (x >>= f) := by
  intro s hs
  rw [bind_run]
  exact (hx s hs).bind fun a s' hs' => hf a s' hs'

/-- A program that keeps `I`, followed by one that leads from `I` to `J`. -/
theorem bind_post {J : σ → Prop} (hIJ : ∀ s, I s → J s) (hx : Keeps I x)
    (hf : ∀ a s, I s → (f a s).Post (fun _ => J) fun _ => J) {s : σ} (hs : I s) :
    ((x >>= f) s).Post (fun _ => J) fun _ => J := by
  have hfirst : (x s).Post (fun _ => I) fun _ => J := (hx s hs).mono (fun _ _ ht => ht) fun _ => hIJ
  exact hfirst.bind hf

theorem ofExcept {δ : Type} (raise : δ → ε) (r : Except δ α) :
    Keeps I (ofExcept raise r : Exec σ ε υ α) := by
  cases r with
  | ok a => exact pure a
  | error e => exact throw (raise e)

theorem ofOption (u : υ) (o : Option α) : Keeps I (ofOption u o : Exec σ ε υ α) := by
  cases o with
  | some a => exact pure a
  | none => exact undefined u

theorem ite {c : Prop} [Decidable c] {y : Exec σ ε υ α} (hx : Keeps I x) (hy : Keeps I y) :
    Keeps I (if c then x else y) := by
  split_ifs
  · exact hx
  · exact hy

theorem forEach {l : List α} {body : α → Exec σ ε υ Unit} (hb : ∀ a ∈ l, Keeps I (body a)) :
    Keeps I (forEach l body) := by
  induction l with
  | nil => exact pure ()
  | cons a l ih =>
    rw [forEach_cons]
    exact (hb a List.mem_cons_self).bind fun _ => ih fun b hb' => hb b (List.mem_cons_of_mem a hb')

theorem iterate {n : ℕ} {body : Exec σ ε υ Unit} (hb : Keeps I body) :
    Keeps I (iterate n body) :=
  iterate_post hb n

end Keeps

/-! ### Programs that never throw -/

/-- The program throws nothing, in any state. -/
def NoThrow (x : Exec σ ε υ α) : Prop := ∀ s, (x s).Post (fun _ _ => True) fun _ _ => False

namespace NoThrow

variable {x : Exec σ ε υ α} {f : α → Exec σ ε υ β}

theorem pure (a : α) : NoThrow (pure a : Exec σ ε υ α) := fun _ => trivial

theorem undefined (u : υ) : NoThrow (undefined u : Exec σ ε υ α) := fun _ => trivial

theorem gets (g : σ → α) : NoThrow (gets g : Exec σ ε υ α) := fun _ => trivial

theorem modify (g : σ → σ) : NoThrow (modify g : Exec σ ε υ Unit) := fun _ => trivial

/-- Dereferencing a pointer throws nothing. -/
theorem deref (u : υ) (g : σ → Option α) :
    NoThrow (fun s => (ofOption u (g s) : Exec σ ε υ α) s) := by
  intro s
  cases hg : g s with
  | some a =>
    simp only [hg]
    trivial
  | none =>
    simp only [hg]
    trivial

theorem bind (hx : NoThrow x) (hf : ∀ a, NoThrow (f a)) : NoThrow (x >>= f) :=
  fun s => (hx s).bind fun a t _ => hf a t

theorem ite {c : Prop} [Decidable c] {y : Exec σ ε υ α} (hx : NoThrow x) (hy : NoThrow y) :
    NoThrow (if c then x else y) := by
  split_ifs
  · exact hx
  · exact hy

theorem forEach {l : List α} {body : α → Exec σ ε υ Unit} (hb : ∀ a ∈ l, NoThrow (body a)) :
    NoThrow (forEach l body) := by
  induction l with
  | nil => exact pure ()
  | cons a l ih =>
    rw [forEach_cons]
    exact (hb a List.mem_cons_self).bind fun _ => ih fun b hb' => hb b (List.mem_cons_of_mem a hb')

theorem iterate {n : ℕ} {body : Exec σ ε υ Unit} (hb : NoThrow body) :
    NoThrow (iterate n body) := fun s => iterate_post (fun s _ => hb s) n s trivial

end NoThrow

/-! ### Parts of the state that a program leaves alone -/

/-- The program leaves the part `part` of the state alone, whether it returns or throws. -/
def Fixes {γ : Type} (part : σ → γ) (x : Exec σ ε υ α) : Prop := ∀ o, Keeps (fun s => part s = o) x

namespace Fixes

variable {γ δ : Type} {part : σ → γ} {x y : Exec σ ε υ α} {f : α → Exec σ ε υ β}

/-- Such a program keeps every predicate of that part. -/
theorem keeps {I : σ → Prop} (hI : ∀ s t, part s = part t → I s → I t) (hx : Fixes part x) :
    Keeps I x := by
  intro s hs
  exact (hx (part s) s rfl).mono (fun _ t ht => hI s t ht.symm hs) fun _ t ht => hI s t ht.symm hs

/-- What leaves a part alone leaves every smaller part alone. -/
theorem of_eq {part' : σ → δ} (hp : ∀ s t, part s = part t → part' s = part' t)
    (hx : Fixes part x) : Fixes part' x :=
  fun _ => hx.keeps fun s t h hs => (hp s t h).symm.trans hs

theorem pure (a : α) : Fixes part (pure a : Exec σ ε υ α) := fun _ => .pure a

theorem throw (e : ε) : Fixes part (throw e : Exec σ ε υ α) := fun _ => .throw e

theorem undefined (u : υ) : Fixes part (undefined u : Exec σ ε υ α) := fun _ => .undefined u

theorem gets (g : σ → α) : Fixes part (gets g : Exec σ ε υ α) := fun _ => .gets g

theorem modify {g : σ → σ} (hg : ∀ s, part (g s) = part s) :
    Fixes part (modify g : Exec σ ε υ Unit) := fun _ => .modify fun s hs => (hg s).trans hs

theorem bind (hx : Fixes part x) (hf : ∀ a, Fixes part (f a)) : Fixes part (x >>= f) :=
  fun o => (hx o).bind fun a => hf a o

theorem ofExcept {δ : Type} (raise : δ → ε) (r : Except δ α) :
    Fixes part (ofExcept raise r : Exec σ ε υ α) := fun _ => .ofExcept raise r

/-- Dereferencing a pointer changes nothing. -/
theorem deref (u : υ) (g : σ → Option α) :
    Fixes part (fun s => (ofOption u (g s) : Exec σ ε υ α) s) :=
  fun _ s hs => Keeps.ofOption u (g s) s hs

theorem ite {c : Prop} [Decidable c] (hx : Fixes part x) (hy : Fixes part y) :
    Fixes part (if c then x else y) := fun o => (hx o).ite (hy o)

theorem forEach {l : List α} {body : α → Exec σ ε υ Unit} (hb : ∀ a ∈ l, Fixes part (body a)) :
    Fixes part (forEach l body) := fun o => .forEach fun a ha => hb a ha o

end Fixes

/-! ### Programs whose behaviour is defined -/

/-- What is done with the value of the last program does not matter to the state it leads to. -/
theorem final?_bind_pure (x : Exec σ ε υ α) (f : α → β) (s : σ) :
    ((x >>= fun a => (pure (f a) : Exec σ ε υ β)) s).final? = (x s).final? := by
  rw [bind_run]
  cases x s with
  | ok a t => rfl
  | threw e t => rfl
  | undefined u => rfl

/-- From a state that satisfies `I` the behaviour of the program is defined, and leads to such a
state. -/
def Defined (I : σ → Prop) (x : Exec σ ε υ α) : Prop :=
  ∀ s, I s → ∃ t, (x s).final? = some t ∧ I t

namespace Defined

variable {δ : Type} {I : σ → Prop} {x y : Exec σ ε υ α} {f : α → Exec σ ε υ β}

theorem of_keeps (hx : Keeps I x) (hdef : ∀ s, I s → ∃ t, (x s).final? = some t) :
    Defined I x := by
  intro s hs
  obtain ⟨t, ht⟩ := hdef s hs
  exact ⟨t, ht, (hx s hs).of_final? ht⟩

theorem keeps (hx : Defined I x) : Keeps I x := by
  intro s hs
  obtain ⟨t, ht, hI⟩ := hx s hs
  exact .of_forall_final? fun u hu => Option.some.inj (ht.symm.trans hu) ▸ hI

theorem pure (a : α) : Defined I (pure a : Exec σ ε υ α) := fun s hs => ⟨s, rfl, hs⟩

theorem throw (e : ε) : Defined I (throw e : Exec σ ε υ α) := fun s hs => ⟨s, rfl, hs⟩

/-- What the first program returns is known to satisfy `P`. -/
theorem bind_of {P : α → Prop} (hx : Defined I x)
    (hP : ∀ s, I s → (x s).Post (fun a _ => P a) fun _ _ => True)
    (hf : ∀ a, P a → Defined I (f a)) : Defined I (x >>= f) := by
  intro s hs
  obtain ⟨t, ht, hI⟩ := hx s hs
  have hpost := hP s hs
  rw [bind_run]
  cases hxs : x s with
  | ok a u =>
    rw [hxs] at ht hpost
    exact hf a hpost u (Option.some.inj ht ▸ hI)
  | threw e u =>
    rw [hxs] at ht
    exact ⟨u, rfl, Option.some.inj ht ▸ hI⟩
  | undefined u =>
    rw [hxs] at ht
    cases ht

/-- The second program leads elsewhere. -/
theorem exists_bind {J : σ → Prop} (hx : Defined I x) (hIJ : ∀ s, I s → J s)
    (hf : ∀ a s, I s → ∃ t, (f a s).final? = some t ∧ J t) {s : σ} (hs : I s) :
    ∃ t, ((x >>= f) s).final? = some t ∧ J t := by
  obtain ⟨t, ht, hI⟩ := hx s hs
  rw [bind_run]
  cases hxs : x s with
  | ok a u =>
    rw [hxs, Outcome.final?_ok] at ht
    exact hf a u (Option.some.inj ht ▸ hI)
  | threw e u =>
    rw [hxs, Outcome.final?_threw] at ht
    exact ⟨u, rfl, Option.some.inj ht ▸ hIJ t hI⟩
  | undefined u =>
    rw [hxs] at ht
    cases ht

theorem bind (hx : Defined I x) (hf : ∀ a, Defined I (f a)) : Defined I (x >>= f) :=
  hx.bind_of (P := fun _ => True)
    (fun _ _ => .of_forall (fun _ _ => trivial) fun _ _ => trivial) fun a _ => hf a

/-- After a program that changes nothing and returns a value that satisfies `P`. -/
theorem bind_of_ok {x : Exec σ ε υ δ} {P : δ → Prop} {f : δ → Exec σ ε υ β}
    (hx : ∀ s, I s → ∃ d, x s = .ok d s ∧ P d) (hf : ∀ d, P d → Defined I (f d)) :
    Defined I (x >>= f) := by
  intro s hs
  obtain ⟨d, hd, hP⟩ := hx s hs
  rw [bind_run, hd, Outcome.bind_ok]
  exact hf d hP s hs

theorem ite {c : Prop} [Decidable c] (hx : Defined I x) (hy : Defined I y) :
    Defined I (if c then x else y) := by
  split_ifs
  · exact hx
  · exact hy

theorem forEach {l : List δ} {body : δ → Exec σ ε υ Unit} (hb : ∀ a ∈ l, Defined I (body a)) :
    Defined I (forEach l body) := by
  induction l with
  | nil => exact .pure ()
  | cons a rest ih =>
    exact .bind (hb a List.mem_cons_self) fun _ => ih fun b hb' => hb b (List.mem_cons_of_mem a hb')

theorem iterate {body : Exec σ ε υ Unit} (hb : Defined I body) (n : ℕ) :
    Defined I (iterate n body) := by
  induction n with
  | zero => exact .pure ()
  | succ n ih => exact .bind hb fun _ => ih

theorem gets (g : σ → α) : Defined I (gets g : Exec σ ε υ α) := fun s hs => ⟨s, rfl, hs⟩

theorem modify {g : σ → σ} (hg : ∀ s, I s → I (g s)) : Defined I (modify g : Exec σ ε υ Unit) :=
  fun s hs => ⟨g s, rfl, hg s hs⟩

theorem ofExcept {δ : Type} (raise : δ → ε) (r : Except δ α) :
    Defined I (ofExcept raise r : Exec σ ε υ α) := by
  cases r with
  | ok a => exact .pure a
  | error e => exact .throw _

end Defined

/-! ### Runs -/

/-- `Reaches step s t`: some sequence of calls, each run to its end or to an exception, leads from
`s` to `t`. A call is admitted in a state when `guard` allows it there. -/
inductive Reaches {ι : Type} (step : ι → Exec σ ε υ Unit) (guard : ι → σ → Prop) (s : σ) :
    σ → Prop
  | refl : Reaches step guard s s
  | step {t u : σ} (c : ι) (h : Reaches step guard s t) (hc : guard c t)
      (hu : (step c t).final? = some u) : Reaches step guard s u

/-- A predicate that every admitted call keeps holds along every run. -/
theorem Reaches.invariant {ι : Type} {step : ι → Exec σ ε υ Unit} {guard : ι → σ → Prop}
    {I : σ → Prop} (hstep : ∀ c s, guard c s → I s → (step c s).Post (fun _ => I) fun _ => I)
    {s t : σ} (hs : I s) (h : Reaches step guard s t) : I t := by
  induction h with
  | refl => exact hs
  | step c _ hc hu ih => exact (hstep c _ hc ih).of_final? hu

/-- When every admitted call is defined and keeps a predicate, the predicate holds along every run,
and the run can go on with any call that is admitted. -/
theorem Reaches.defined {ι : Type} {step : ι → Exec σ ε υ Unit} {guard : ι → σ → Prop}
    {I : σ → Prop}
    (hstep : ∀ c s, guard c s → I s → ∃ t, (step c s).final? = some t ∧ I t) {s t : σ} (hs : I s)
    (h : Reaches step guard s t) : I t ∧ ∀ c, guard c t → ∃ u, (step c t).final? = some u := by
  have ht : I t := by
    induction h with
    | refl => exact hs
    | step c _ hc hu ih =>
      obtain ⟨u, hu', hI⟩ := hstep c _ hc ih
      exact Option.some.inj (hu'.symm.trans hu) ▸ hI
  refine ⟨ht, fun c hc => ?_⟩
  obtain ⟨u, hu, -⟩ := hstep c t hc ht
  exact ⟨u, hu⟩

/-- The state a list of calls leads to, if each is admitted and its behaviour is defined. -/
def runAll {ι : Type} (step : ι → Exec σ ε υ Unit) (guard : ι → σ → Prop)
    [∀ c s, Decidable (guard c s)] : List ι → σ → Option σ
  | [], s => some s
  | c :: cs, s => if guard c s then (step c s).final?.bind (runAll step guard cs) else none

/-- A predicate that every call of a list keeps survives the list. -/
theorem runAll_invariant {ι : Type} {step : ι → Exec σ ε υ Unit} {guard : ι → σ → Prop}
    [∀ c s, Decidable (guard c s)] {I : σ → Prop} {cs : List ι}
    (hstep : ∀ c ∈ cs, Keeps I (step c)) {s t : σ} (ht : runAll step guard cs s = some t)
    (hs : I s) : I t := by
  induction cs generalizing s with
  | nil => exact Option.some.inj ht ▸ hs
  | cons c cs ih =>
    rw [runAll] at ht
    split_ifs at ht
    obtain ⟨u, hu, ht⟩ := Option.bind_eq_some_iff.mp ht
    exact ih (fun d hd => hstep d (List.mem_cons_of_mem c hd)) ht
      ((hstep c List.mem_cons_self s hs).of_final? hu)

theorem Reaches.of_runAll {ι : Type} {step : ι → Exec σ ε υ Unit} {guard : ι → σ → Prop}
    [∀ c s, Decidable (guard c s)] {s₀ t : σ} (cs : List ι) {s : σ}
    (h : Reaches step guard s₀ s) (ht : runAll step guard cs s = some t) :
    Reaches step guard s₀ t := by
  induction cs generalizing s with
  | nil => exact Option.some.inj ht ▸ h
  | cons c cs ih =>
    rw [runAll] at ht
    split_ifs at ht with hc
    obtain ⟨u, hu, ht⟩ := Option.bind_eq_some_iff.mp ht
    exact ih (.step c h hc hu) ht

/-- A run found by computing it. -/
theorem exists_reaches {ι : Type} {step : ι → Exec σ ε υ Unit} {guard : ι → σ → Prop}
    [∀ c s, Decidable (guard c s)] (cs : List ι) {s : σ} {P : σ → Prop} [DecidablePred P]
    (h : (runAll step guard cs s).any (fun t => decide (P t)) = true) :
    ∃ t, Reaches step guard s t ∧ P t := by
  obtain ⟨t, ht, hP⟩ := (Option.any_eq_true _ _).mp h
  exact ⟨t, .of_runAll cs .refl ht, of_decide_eq_true hP⟩

/-- A run that goes on where another one ends. -/
theorem Reaches.trans {ι : Type} {step : ι → Exec σ ε υ Unit} {guard : ι → σ → Prop} {s t u : σ}
    (hst : Reaches step guard s t) (htu : Reaches step guard t u) : Reaches step guard s u := by
  induction htu with
  | refl => exact hst
  | step c _ hc hu ih => exact .step c ih hc hu

/-- A run under a stronger guard is a run under a weaker one. -/
theorem Reaches.mono {ι : Type} {step : ι → Exec σ ε υ Unit} {guard guard' : ι → σ → Prop}
    (hg : ∀ c s, guard c s → guard' c s) {s t : σ} (h : Reaches step guard s t) :
    Reaches step guard' s t := by
  induction h with
  | refl => exact .refl
  | step c _ hc hu ih => exact .step c ih (hg c _ hc) hu

section Along

variable {ι : Type} {step : ι → Exec σ ε υ Unit} {P Q : ι → σ → σ → Prop}

/-- The behaviour of every call of the list is defined, and `P` relates it to the state it is made
in and to the state it leaves. -/
def Along (step : ι → Exec σ ε υ Unit) (P : ι → σ → σ → Prop) : List ι → σ → Prop
  | [], _ => True
  | c :: cs, s => ∃ t, (step c s).final? = some t ∧ P c s t ∧ Along step P cs t

@[simp] theorem along_nil (s : σ) : Along step P [] s := trivial

theorem along_cons {c : ι} {cs : List ι} {s t : σ} (ht : (step c s).final? = some t) :
    Along step P (c :: cs) s ↔ P c s t ∧ Along step P cs t := by
  constructor
  · rintro ⟨u, hu, hP, hcs⟩
    obtain rfl : t = u := Option.some.inj (ht.symm.trans hu)
    exact ⟨hP, hcs⟩
  · rintro ⟨hP, hcs⟩
    exact ⟨t, ht, hP, hcs⟩

/-- Along a run that has been computed, every call is admitted. -/
theorem along_of_runAll {guard : ι → σ → Prop} [∀ c s, Decidable (guard c s)] {cs : List ι} {s : σ}
    (h : (runAll step guard cs s).isSome = true) : Along step (fun c s _ => guard c s) cs s := by
  induction cs generalizing s with
  | nil => exact along_nil s
  | cons c cs ih =>
    rw [runAll] at h
    split_ifs at h with hc
    · cases ht : (step c s).final? with
      | none => rw [ht] at h; exact Bool.noConfusion h
      | some t =>
        rw [ht] at h
        exact ⟨t, ht, hc, ih h⟩
    · exact Bool.noConfusion h

/-- Two relations that agree in every state that satisfies `I` hold along the same runs, if the
first one leads from such a state to such a state. -/
theorem along_congr {I : σ → Prop} {cs : List ι}
    (hPQ : ∀ c ∈ cs, ∀ s t, I s → (step c s).final? = some t → (P c s t ↔ Q c s t))
    (hI : ∀ c ∈ cs, ∀ s t, I s → (step c s).final? = some t → P c s t → I t) {s : σ} (hs : I s) :
    Along step P cs s ↔ Along step Q cs s := by
  induction cs generalizing s with
  | nil => exact Iff.rfl
  | cons c cs ih =>
    have ih := @ih (fun d hd => hPQ d (List.mem_cons_of_mem c hd))
      (fun d hd => hI d (List.mem_cons_of_mem c hd))
    refine exists_congr fun t => and_congr_right fun ht => ?_
    have hc := hPQ c List.mem_cons_self s t hs ht
    refine ⟨fun h => ⟨hc.mp h.1, ?_⟩, fun h => ⟨hc.mpr h.1, ?_⟩⟩
    · exact (ih (hI c List.mem_cons_self s t hs ht h.1)).mp h.2
    · exact (ih (hI c List.mem_cons_self s t hs ht (hc.mpr h.1))).mpr h.2

/-- A relation that, in every state that satisfies `I`, depends on the call alone, and leads to such
a state where it holds. -/
theorem along_iff_forall {I : σ → Prop} {C : ι → Prop}
    (hstep : ∀ c s, I s → ∃ t, (step c s).final? = some t ∧ (P c s t ↔ C c) ∧ (P c s t → I t))
    (cs : List ι) {s : σ} (hs : I s) : Along step P cs s ↔ ∀ c ∈ cs, C c := by
  induction cs generalizing s with
  | nil => simp
  | cons c cs ih =>
    obtain ⟨t, ht, hPC, hI⟩ := hstep c s hs
    rw [along_cons ht, List.forall_mem_cons, ← hPC]
    exact and_congr_right fun hP => ih (hI hP)

end Along

end Exec
