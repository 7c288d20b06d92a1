import Mathlib.Control.Monad.Basic

/-!
# Computations that raise and keep their state

A computation over mutable objects may raise halfway. The objects keep what was
written to them before the raise, because nothing restores them when the
exception unwinds. `Act ε σ α` is such a computation: it takes a state and ends
in a state, with a value or with an exception.

Two ways of reasoning are developed. A triple (`Triple`) bounds the states a
computation ends in, separately for a return and for a raise. A simulation
(`Simulates`) compares two computations from states that are related.
-/

set_option autoImplicit false

namespace EapAccel.Foundations

/-! ## Exceptions alone -/

namespace Except

variable {ε α β : Type} {f : α → Except ε α}

@[simp] theorem ok_bind (a : α) (f : α → Except ε β) : (Except.ok a >>= f) = f a := rfl

@[simp] theorem error_bind (e : ε) (f : α → Except ε β) :
    ((Except.error e : Except ε α) >>= f) = .error e := rfl

/-- What is returned after a bind went through a return of its first part. -/
theorem ok_of_bind {x : Except ε α} {g : α → Except ε β} {b : β} (returned : (x >>= g) = .ok b) :
    ∃ a, x = .ok a ∧ g a = .ok b := by
  cases x with
  | error e =>
      rw [error_bind] at returned
      cases returned
  | ok a => exact ⟨a, rfl, returned⟩

theorem mem_toOption {x : Except ε α} {a : α} : a ∈ x.toOption ↔ x = .ok a := by
  cases x with
  | error e => simp [Except.toOption]
  | ok b => simp [Except.toOption]

/-- Values that are all returned as they are. -/
theorem mapM_self {xs : List α} (returned : ∀ x ∈ xs, f x = .ok x) : xs.mapM f = .ok xs := by
  induction xs with
  | nil => rfl
  | cons x xs ih =>
      rw [List.mapM_cons, returned x List.mem_cons_self, ok_bind,
        ih fun x' member => returned x' (List.mem_cons_of_mem x member), ok_bind]
      rfl

/-- Values that are returned as they are, if at all. -/
theorem eq_of_mapM {xs ys : List α} (same : ∀ x ∈ xs, ∀ y, f x = .ok y → y = x)
    (mapped : xs.mapM f = .ok ys) : ys = xs := by
  induction xs generalizing ys with
  | nil =>
      cases mapped
      rfl
  | cons x xs ih =>
      rw [List.mapM_cons] at mapped
      obtain ⟨y, head, rest⟩ := ok_of_bind mapped
      obtain ⟨zs, tail, returned⟩ := ok_of_bind rest
      cases returned
      rw [same x List.mem_cons_self y head,
        ih (fun x' member => same x' (List.mem_cons_of_mem x member)) tail]

theorem option_mapM_self {x : Option α} (returned : ∀ v ∈ x, f v = .ok v) :
    x.mapM f = .ok x := by
  cases x with
  | none => rfl
  | some v =>
      show (some <$> f v) = _
      rw [returned v rfl]
      rfl

theorem eq_of_option_mapM {x y : Option α} (same : ∀ v ∈ x, ∀ w, f v = .ok w → w = v)
    (mapped : x.mapM f = .ok y) : y = x := by
  cases x with
  | none =>
      cases mapped
      rfl
  | some v =>
      have image : (some <$> f v) = Except.ok y := mapped
      cases head : f v with
      | error e =>
          rw [head] at image
          cases image
      | ok w =>
          rw [head] at image
          cases image
          rw [same v rfl w head]

end Except

/-! ## Exceptions over a state -/

/-- A computation over the state `σ` that returns an `α` or raises an `ε`, and
ends in a state either way. -/
def Act (ε σ α : Type) : Type := σ → Except ε α × σ

namespace Act

variable {ε σ τ α β : Type}

/-! ## The monad -/

instance : Monad (Act ε σ) where
  pure a := fun s => (.ok a, s)
  bind x f := fun s =>
    match x s with
    | (.ok a, s') => f a s'
    | (.error e, s') => (.error e, s')

/-- Raise `e`; the state stays as it is. -/
def raise (e : ε) : Act ε σ α := fun s => (.error e, s)

/-- The current state. -/
def read : Act ε σ σ := fun s => (.ok s, s)

/-- Write to the state. -/
def modify (f : σ → σ) : Act ε σ Unit := fun s => (.ok (), f s)

/-- A computation without state, which returns or raises. -/
def lift (x : Except ε α) : Act ε σ α := fun s => (x, s)

/-- Run a computation on a part of a larger state. -/
def zoom (get : τ → σ) (set : σ → τ → τ) (x : Act ε σ α) : Act ε τ α := fun t =>
  ((x (get t)).1, set (x (get t)).2 t)

@[simp] theorem pure_apply (a : α) (s : σ) : (pure a : Act ε σ α) s = (.ok a, s) := rfl

@[simp] theorem raise_apply (e : ε) (s : σ) : (raise e : Act ε σ α) s = (.error e, s) := rfl

@[simp] theorem read_apply (s : σ) : (read : Act ε σ σ) s = (.ok s, s) := rfl

@[simp] theorem modify_apply (f : σ → σ) (s : σ) :
    (modify f : Act ε σ Unit) s = (.ok (), f s) := rfl

@[simp] theorem lift_apply (x : Except ε α) (s : σ) : (lift x : Act ε σ α) s = (x, s) := rfl

@[simp] theorem ite_apply (c : Prop) [Decidable c] (x y : Act ε σ α) (s : σ) :
    (if c then x else y) s = if c then x s else y s := by
  split <;> rfl

theorem bind_apply (x : Act ε σ α) (f : α → Act ε σ β) (s : σ) :
    (x >>= f) s =
      match x s with
      | (.ok a, s') => f a s'
      | (.error e, s') => (.error e, s') := rfl

/-- After a return the continuation runs. -/
theorem bind_of_ok {x : Act ε σ α} {f : α → Act ε σ β} {s s' : σ} {a : α}
    (returns : x s = (.ok a, s')) : (x >>= f) s = f a s' := by
  rw [bind_apply, returns]

/-- After a raise the continuation is skipped. -/
theorem bind_of_error {x : Act ε σ α} {f : α → Act ε σ β} {s s' : σ} {e : ε}
    (raises : x s = (.error e, s')) : (x >>= f) s = (.error e, s') := by
  rw [bind_apply, raises]

/-- A sequence that returned went through a return of its first part. -/
theorem ok_of_bind {x : Act ε σ α} {f : α → Act ε σ β} {s s' : σ} {b : β}
    (returns : (x >>= f) s = (.ok b, s')) :
    ∃ a mid, x s = (.ok a, mid) ∧ f a mid = (.ok b, s') := by
  rw [bind_apply] at returns
  rcases hx : x s with ⟨_ | a, mid⟩
  · rw [hx] at returns
    cases returns
  · rw [hx] at returns
    exact ⟨a, mid, rfl, returns⟩

@[simp] theorem read_bind (f : σ → Act ε σ β) (s : σ) : (read >>= f) s = f s s := rfl

@[simp] theorem modify_bind (g : σ → σ) (f : Unit → Act ε σ β) (s : σ) :
    (modify g >>= f) s = f () (g s) := rfl

@[simp] theorem lift_ok_bind (a : α) (f : α → Act ε σ β) (s : σ) :
    ((lift (.ok a) : Act ε σ α) >>= f) s = f a s := rfl

@[simp] theorem lift_error_bind (e : ε) (f : α → Act ε σ β) (s : σ) :
    ((lift (.error e) : Act ε σ α) >>= f) s = (.error e, s) := rfl

@[simp] theorem raise_bind (e : ε) (f : α → Act ε σ β) (s : σ) :
    ((raise e : Act ε σ α) >>= f) s = (.error e, s) := rfl

theorem bind_lift_ok (a : α) (f : α → Act ε σ β) :
    ((lift (.ok a) : Act ε σ α) >>= f) = f a := rfl

instance : LawfulMonad (Act ε σ) := by
  refine LawfulMonad.mk' _ ?_ (fun _ _ => rfl) ?_
  · intro α x
    funext s
    show (x >>= fun a => pure a) s = x s
    rw [bind_apply]
    rcases x s with ⟨_ | _, _⟩ <;> rfl
  · intro α β γ x f g
    funext s
    simp only [bind_apply]
    rcases x s with ⟨_ | _, _⟩ <;> rfl

/-! ## One computation after another

A server that swallows exceptions handles its inputs one after another and goes on
from whatever state each one left. -/

/-- Run `f` on every input in order, from the state the previous one ended in. -/
def collect (f : β → Act ε σ α) : List β → σ → List (Except ε α) × σ
  | [], s => ([], s)
  | b :: bs, s => ((f b s).1 :: (collect f bs (f b s).2).1, (collect f bs (f b s).2).2)

@[simp] theorem collect_nil (f : β → Act ε σ α) (s : σ) : collect f [] s = ([], s) := rfl

theorem collect_cons {f : β → Act ε σ α} {b : β} {bs : List β} {s s' s'' : σ}
    {result : Except ε α} {results : List (Except ε α)} (head : f b s = (result, s'))
    (rest : collect f bs s' = (results, s'')) :
    collect f (b :: bs) s = (result :: results, s'') := by
  simp only [collect, head, rest]

theorem collect_append {f : β → Act ε σ α} {bs bs' : List β} {s s' s'' : σ}
    {results results' : List (Except ε α)} (first : collect f bs s = (results, s'))
    (rest : collect f bs' s' = (results', s'')) :
    collect f (bs ++ bs') s = (results ++ results', s'') := by
  induction bs generalizing s results with
  | nil =>
      cases first
      exact rest
  | cons b bs ih =>
      rcases hb : f b s with ⟨result, mid⟩
      rcases hbs : collect f bs mid with ⟨results₁, s₁⟩
      rw [collect_cons hb hbs] at first
      cases first
      exact collect_cons hb (ih hbs)

theorem collect_concat (f : β → Act ε σ α) (bs : List β) (b : β) (s : σ) :
    collect f (bs ++ [b]) s = ((collect f bs s).1 ++ [(f b (collect f bs s).2).1],
      (f b (collect f bs s).2).2) :=
  collect_append rfl (collect_cons rfl (collect_nil f _))

/-! ## Triples -/

/-- From a state in `pre`, the computation returns into `post` or raises into
`raised`. -/
def Triple (pre : σ → Prop) (x : Act ε σ α) (post : α → σ → Prop) (raised : ε → σ → Prop) :
    Prop :=
  ∀ s, pre s → match x s with
    | (.ok a, s') => post a s'
    | (.error e, s') => raised e s'

namespace Triple

variable {pre : σ → Prop} {post : α → σ → Prop} {raised : ε → σ → Prop}

theorem returned {x : Act ε σ α} (triple : Triple pre x post raised) {s s' : σ} {a : α}
    (start : pre s) (returns : x s = (.ok a, s')) : post a s' := by
  have := triple s start
  rwa [returns] at this

/-- Where a return and a raise end in the same states, the computation ends there. -/
theorem ended {final : σ → Prop} {x : Act ε σ α}
    (triple : Triple pre x (fun _ => final) (fun _ => final)) {s : σ} (start : pre s) :
    final (x s).2 := by
  have := triple s start
  rcases hx : x s with ⟨_ | _, s'⟩ <;> simpa only [hx] using this

protected theorem pure {a : α} (holds : ∀ s, pre s → post a s) :
    Triple pre (pure a : Act ε σ α) post raised :=
  fun s start => holds s start

protected theorem raise {e : ε} (holds : ∀ s, pre s → raised e s) :
    Triple pre (raise e : Act ε σ α) post raised :=
  fun s start => holds s start

protected theorem modify {f : σ → σ} {post : Unit → σ → Prop} (holds : ∀ s, pre s → post () (f s)) :
    Triple pre (modify f : Act ε σ Unit) post raised :=
  fun s start => holds s start

protected theorem lift {x : Except ε α} (returns : ∀ a s, x = .ok a → pre s → post a s)
    (raises : ∀ e s, x = .error e → pre s → raised e s) :
    Triple pre (lift x : Act ε σ α) post raised := by
  intro s start
  cases x with
  | ok a => exact returns a s rfl start
  | error e => exact raises e s rfl start

protected theorem bind {x : Act ε σ α} {f : α → Act ε σ β} {mid : α → σ → Prop}
    {post : β → σ → Prop} (first : Triple pre x mid raised)
    (rest : ∀ a, Triple (mid a) (f a) post raised) :
    Triple pre (x >>= f) post raised := by
  intro s start
  have head := first s start
  rw [bind_apply]
  rcases hx : x s with ⟨e | a, s'⟩
  · simpa only [hx] using head
  · rw [hx] at head
    exact rest a s' head

/-- Reading the state names it: the rest runs from that one state. -/
theorem read_bind {f : σ → Act ε σ β} {post : β → σ → Prop}
    (rest : ∀ s, pre s → Triple (fun t => t = s) (f s) post raised) :
    Triple pre (read >>= f) post raised :=
  fun s start => rest s start s rfl

/-- The triple at one state. -/
theorem at_state {x : Act ε σ α} (triple : Triple pre x post raised) {s : σ} (start : pre s) :
    Triple (fun t => t = s) x post raised := by
  rintro t rfl
  exact triple t start

/-- A triple is a triple at each state of its precondition. -/
theorem of_states {x : Act ε σ α}
    (each : ∀ s, pre s → Triple (fun t => t = s) x post raised) : Triple pre x post raised :=
  fun s start => each s start s rfl

theorem conseq {pre' : σ → Prop} {post' : α → σ → Prop} {raised' : ε → σ → Prop}
    {x : Act ε σ α} (triple : Triple pre x post raised) (weaker : ∀ s, pre' s → pre s)
    (returns : ∀ a s, post a s → post' a s) (raises : ∀ e s, raised e s → raised' e s) :
    Triple pre' x post' raised' := by
  intro s start
  have bound := triple s (weaker s start)
  rcases hx : x s with ⟨e | a, s'⟩
  · simp only [hx] at bound
    exact raises e s' bound
  · simp only [hx] at bound
    exact returns a s' bound

protected theorem ite {c : Prop} [Decidable c] {x y : Act ε σ α}
    (yes : c → Triple pre x post raised) (no : ¬ c → Triple pre y post raised) :
    Triple pre (if c then x else y) post raised := by
  split
  · exact yes ‹_›
  · exact no ‹_›

end Triple

/-! ## Invariants -/

/-- From a state in `inv` the computation ends in `inv`, whether it returns or raises. -/
def Invariant (inv : σ → Prop) (x : Act ε σ α) : Prop :=
  Triple inv x (fun _ => inv) (fun _ => inv)

namespace Invariant

variable {inv : σ → Prop}

theorem ended {x : Act ε σ α} (invariant : Invariant inv x) {s : σ} (start : inv s) :
    inv (x s).2 :=
  Triple.ended invariant start

theorem of_ended {x : Act ε σ α} (ends : ∀ s, inv s → inv (x s).2) : Invariant inv x := by
  intro s start
  have := ends s start
  rcases hx : x s with ⟨_ | _, s'⟩ <;> simpa only [hx] using this

protected theorem pure (a : α) : Invariant inv (pure a : Act ε σ α) := fun _ start => start

protected theorem raise (e : ε) : Invariant inv (raise e : Act ε σ α) := fun _ start => start

protected theorem lift (x : Except ε α) : Invariant inv (lift x : Act ε σ α) :=
  of_ended fun _ start => start

protected theorem modify {f : σ → σ} (holds : ∀ s, inv s → inv (f s)) :
    Invariant inv (modify f : Act ε σ Unit) := holds

protected theorem bind {x : Act ε σ α} {f : α → Act ε σ β} (first : Invariant inv x)
    (rest : ∀ a, Invariant inv (f a)) : Invariant inv (x >>= f) :=
  Triple.bind first rest

theorem read_bind {f : σ → Act ε σ β} (rest : ∀ s, Invariant inv (f s)) :
    Invariant inv (read >>= f) :=
  fun s start => rest s s start

protected theorem ite {c : Prop} [Decidable c] {x y : Act ε σ α} (yes : Invariant inv x)
    (no : Invariant inv y) : Invariant inv (if c then x else y) := by
  split
  · exact yes
  · exact no

end Invariant

/-! ## Frames -/

/-- The computation leaves `view` of the state as it is, whether it returns or raises. -/
def Keeps (view : σ → τ) (x : Act ε σ α) : Prop := ∀ s, view (x s).2 = view s

namespace Keeps

variable {view : σ → τ}

protected theorem pure (a : α) : Keeps view (pure a : Act ε σ α) := fun _ => rfl

protected theorem raise (e : ε) : Keeps view (raise e : Act ε σ α) := fun _ => rfl

protected theorem lift (x : Except ε α) : Keeps view (lift x : Act ε σ α) := fun _ => rfl

protected theorem modify {f : σ → σ} (same : ∀ s, view (f s) = view s) :
    Keeps view (modify f : Act ε σ Unit) := same

protected theorem bind {x : Act ε σ α} {f : α → Act ε σ β} (first : Keeps view x)
    (rest : ∀ a, Keeps view (f a)) : Keeps view (x >>= f) := by
  intro s
  rw [bind_apply]
  rcases hx : x s with ⟨e | a, s'⟩
  · simpa only [hx] using first s
  · have head := first s
    rw [hx] at head
    exact (rest a s').trans head

theorem read_bind {f : σ → Act ε σ β} (rest : ∀ s, view (f s s).2 = view s) :
    Keeps view (read >>= f) := rest

/-- A view of the view is kept, too. -/
theorem weaken {ρ : Type} {x : Act ε σ α} (keeps : Keeps view x) {view' : σ → ρ} (g : τ → ρ)
    (factors : ∀ s, view' s = g (view s)) : Keeps view' x :=
  fun s => by rw [factors, factors, keeps]

/-- What depends on the view alone is an invariant. -/
theorem invariant {x : Act ε σ α} (keeps : Keeps view x) {inv : σ → Prop}
    (of_view : ∀ s s', view s' = view s → inv s → inv s') : Invariant inv x :=
  Invariant.of_ended fun s start => of_view s _ (keeps s) start

end Keeps

/-! ## Simulations

A computation simulates another one if it does just what the other one does, raises
included. The two may need an assumption that is about the states in between, such as what an
outside party answers. It is made of the last state alone, and has to hold of the earlier ones if
it holds there. -/

/-- Where the first computation ends in a `sound` state it started in one, and from related
states the second one returns or raises the same, and they end in related states. -/
structure Simulates (sound : σ → Prop) (rel : σ → τ → Prop) (x : Act ε σ α) (y : Act ε τ α) :
    Prop where
  back : ∀ s, sound (x s).2 → sound s
  same : ∀ s t, rel s t → sound (x s).2 → (y t).1 = (x s).1 ∧ rel (x s).2 (y t).2

namespace Simulates

variable {sound : σ → Prop} {rel : σ → τ → Prop}

protected theorem pure (a : α) :
    Simulates sound rel (pure a : Act ε σ α) (pure a : Act ε τ α) :=
  ⟨fun _ => id, fun _ _ related _ => ⟨rfl, related⟩⟩

protected theorem raise (e : ε) :
    Simulates sound rel (raise e : Act ε σ α) (raise e : Act ε τ α) :=
  ⟨fun _ => id, fun _ _ related _ => ⟨rfl, related⟩⟩

protected theorem lift (x : Except ε α) :
    Simulates sound rel (lift x : Act ε σ α) (lift x : Act ε τ α) :=
  ⟨fun _ => id, fun _ _ related _ => ⟨rfl, related⟩⟩

protected theorem modify {f : σ → σ} {g : τ → τ} (back : ∀ s, sound (f s) → sound s)
    (same : ∀ s t, rel s t → rel (f s) (g t)) :
    Simulates sound rel (modify f : Act ε σ Unit) (modify g : Act ε τ Unit) :=
  ⟨back, fun s t related _ => ⟨rfl, same s t related⟩⟩

protected theorem bind {x : Act ε σ α} {y : Act ε τ α} {f : α → Act ε σ β} {g : α → Act ε τ β}
    (first : Simulates sound rel x y) (rest : ∀ a, Simulates sound rel (f a) (g a)) :
    Simulates sound rel (x >>= f) (y >>= g) := by
  constructor
  · intro s last
    rw [bind_apply] at last
    rcases hx : x s with ⟨e | a, s'⟩
    · rw [hx] at last
      exact first.back s (hx ▸ last)
    · rw [hx] at last
      refine first.back s ?_
      rw [hx]
      exact (rest a).back s' last
  · intro s t related last
    rw [bind_apply] at last ⊢
    rw [bind_apply]
    rcases hx : x s with ⟨e | a, s'⟩
    · rw [hx] at last
      obtain ⟨same, related⟩ := first.same s t related (hx ▸ last)
      rcases hy : y t with ⟨result, t'⟩
      rw [hx, hy] at same related
      rw [show result = .error e from same]
      exact ⟨rfl, related⟩
    · rw [hx] at last
      have mid : sound (x s).2 := by
        rw [hx]
        exact (rest a).back s' last
      obtain ⟨same, related⟩ := first.same s t related mid
      rcases hy : y t with ⟨result, t'⟩
      rw [hx, hy] at same related
      rw [show result = .ok a from same]
      exact (rest a).same s' t' related last

/-- Two continuations that look at the same part of their states. -/
protected theorem read_bind {ρ : Type} {part : σ → ρ} {part' : τ → ρ} {f : σ → Act ε σ β}
    {g : τ → Act ε τ β} {f' : ρ → Act ε σ β} {g' : ρ → Act ε τ β}
    (agree : ∀ s t, rel s t → part' t = part s) (left : ∀ s, f s = f' (part s))
    (right : ∀ t, g t = g' (part' t)) (rest : ∀ r, Simulates sound rel (f' r) (g' r)) :
    Simulates sound rel (read >>= f) (read >>= g) := by
  have reads : ∀ s, (read >>= f) s = f' (part s) s := fun s => congrFun (left s) s
  have reads' : ∀ t, (read >>= g) t = g' (part' t) t := fun t => congrFun (right t) t
  constructor
  · intro s last
    rw [reads] at last
    exact (rest (part s)).back s last
  · intro s t related last
    rw [reads] at last ⊢
    rw [reads', agree s t related]
    exact (rest (part s)).same s t related last

protected theorem ite {c : Prop} [Decidable c] {x x' : Act ε σ α} {y y' : Act ε τ α}
    (yes : Simulates sound rel x y) (no : Simulates sound rel x' y') :
    Simulates sound rel (if c then x else x') (if c then y else y') := by
  split
  · exact yes
  · exact no

end Simulates

end Act

end EapAccel.Foundations
