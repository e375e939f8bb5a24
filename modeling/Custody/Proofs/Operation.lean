import Custody.Operation

/-!
# Running operations

What an operation built from others comes to, once the first of them is known to succeed or to
fail, how properties of the state are kept by an operation whether or not it fails, and when a
failure leaves no trace: everything that can fail has to come before the first change.
-/

namespace Custody

namespace Operation

variable {σ τ α β : Type} {s t : σ} {a : α} {b : β} {e : Error}

theorem bind_ok {x : Operation σ α} {f : α → Operation σ β} (h : x s = .ok a t) :
    (x >>= f) s = f a t := by
  show EStateM.bind x f s = f a t
  rw [EStateM.bind, h]

theorem bind_error {x : Operation σ α} {f : α → Operation σ β} (h : x s = .error e t) :
    (x >>= f) s = .error e t := by
  show EStateM.bind x f s = .error e t
  rw [EStateM.bind, h]

theorem modify_run (f : σ → σ) (s : σ) : (modify f : Operation σ Unit) s = .ok () (f s) := rfl

theorem lift_ok {x : Except Error α} (h : x = .ok a) : lift x s = .ok a s := by
  rw [h]
  rfl

theorem lift_error {x : Except Error α} (h : x = .error e) : lift x s = .error e s := by
  rw [h]
  rfl

theorem reading_ok {f : σ → Except Error α} (h : f s = .ok a) : reading f s = .ok a s := by
  rw [reading, h]

theorem reading_error {f : σ → Except Error α} (h : f s = .error e) :
    reading f s = .error e s := by
  rw [reading, h]

theorem within_ok {part : σ → τ} {replace : σ → τ → σ} {x : Operation τ α} {u : τ}
    (h : x (part s) = .ok a u) : within part replace x s = .ok a (replace s u) := by
  rw [within, h]

theorem within_error {part : σ → τ} {replace : σ → τ → σ} {x : Operation τ α} {u : τ}
    (h : x (part s) = .error e u) : within part replace x s = .error e (replace s u) := by
  rw [within, h]

theorem after_ok {x : Operation σ α} (h : x s = .ok a t) : x.after s = t := by
  rw [after, h]

theorem after_error {x : Operation σ α} (h : x s = .error e t) : x.after s = t := by
  rw [after, h]

theorem ok_of_result {x : Operation σ α} (h : x.result s = .ok a) : x s = .ok a (x.after s) := by
  unfold result at h
  unfold after
  cases hrun : x s with
  | ok b t =>
      rw [hrun] at h
      cases h
      rfl
  | error e t =>
      rw [hrun] at h
      cases h

theorem error_of_result {x : Operation σ α} (h : x.result s = .error e) :
    x s = .error e (x.after s) := by
  unfold result at h
  unfold after
  cases hrun : x s with
  | ok a t =>
      rw [hrun] at h
      cases h
  | error f t =>
      rw [hrun] at h
      cases h
      rfl

theorem after_within {part : σ → τ} {replace : σ → τ → σ} (x : Operation τ α) (s : σ) :
    (within part replace x).after s = replace s (x.after (part s)) := by
  cases h : x (part s) with
  | ok a u => rw [after_ok (within_ok h), after_ok h]
  | error e u => rw [after_error (within_error h), after_error h]

/-! ## Taking a successful run apart -/

theorem of_except_bind_ok {x : Except Error α} {f : α → Except Error β} (h : x >>= f = .ok b) :
    ∃ a, x = .ok a ∧ f a = .ok b := by
  cases x with
  | ok a => exact ⟨a, rfl, h⟩
  | error e => cases h

theorem of_bind_ok {x : Operation σ α} {f : α → Operation σ β} (h : (x >>= f) s = .ok b t) :
    ∃ a u, x s = .ok a u ∧ f a u = .ok b t := by
  cases hx : x s with
  | ok a u => exact ⟨a, u, rfl, (bind_ok hx).symm.trans h⟩
  | error e u =>
      rw [bind_error hx] at h
      cases h

theorem of_lift_ok {x : Except Error α} (h : lift x s = .ok a t) : x = .ok a ∧ t = s := by
  cases x with
  | ok a' =>
      cases h
      exact ⟨rfl, rfl⟩
  | error e => cases h

theorem of_reading_ok {f : σ → Except Error α} (h : reading f s = .ok a t) :
    f s = .ok a ∧ t = s := by
  cases hf : f s with
  | ok a' =>
      rw [reading_ok hf] at h
      cases h
      exact ⟨rfl, rfl⟩
  | error e =>
      rw [reading_error hf] at h
      cases h

/-! ## What a computation can fail with -/

/-- Every error of the computation has the property. -/
def Faults (P : Error → Prop) (x : Except Error α) : Prop := ∀ e, x = .error e → P e

theorem Faults.ok {P : Error → Prop} (a : α) : Faults P (.ok a) := by
  intro e h
  cases h

theorem Faults.error {P : Error → Prop} (he : P e) : Faults P (.error e : Except Error α) := by
  intro f h
  cases h
  exact he

theorem Faults.bind {P : Error → Prop} {x : Except Error α} {f : α → Except Error β}
    (hx : Faults P x) (hf : ∀ a, Faults P (f a)) : Faults P (x >>= f) := by
  intro e h
  cases x with
  | error e' =>
      cases h
      exact hx _ rfl
  | ok a => exact hf a e h

theorem Faults.map {P : Error → Prop} {x : Except Error α} (g : α → β) (hx : Faults P x) :
    Faults P (x.map g) := by
  intro e h
  cases x with
  | error e' =>
      cases h
      exact hx _ rfl
  | ok a => cases h

theorem Faults.mapError {P : Error → Prop} {ε : Type} (g : ε → Error) (hg : ∀ e, P (g e))
    (x : Except ε α) : Faults P (x.mapError g) := by
  intro e h
  cases x with
  | error e' =>
      cases h
      exact hg _
  | ok a => cases h

theorem Faults.mono {P Q : Error → Prop} {x : Except Error α} (h : ∀ e, P e → Q e)
    (hx : Faults P x) : Faults Q x := fun e herror => h e (hx e herror)

/-- Every error of the operation, in whatever state, has the property. -/
def Raises (P : Error → Prop) (x : Operation σ α) : Prop := ∀ s e t, x s = .error e t → P e

section Raising

variable {P : Error → Prop}

theorem Raises.pure (a : α) : Raises P (pure a : Operation σ α) := by
  intro s e t h
  cases h

theorem Raises.throw (he : P e) : Raises P (throw e : Operation σ α) := by
  intro s f t h
  cases h
  exact he

theorem Raises.modify (f : σ → σ) : Raises P (modify f : Operation σ Unit) := by
  intro s e t h
  cases h

theorem Raises.lift {x : Except Error α} (hx : Faults P x) :
    Raises P (lift x : Operation σ α) := by
  intro s e t h
  cases x with
  | error f =>
      cases h
      exact hx _ rfl
  | ok a => cases h

theorem Raises.reading {f : σ → Except Error α} (hf : ∀ s, Faults P (f s)) :
    Raises P (reading f) := by
  intro s e t h
  cases hread : f s with
  | error g =>
      rw [reading_error hread] at h
      cases h
      exact hf s _ hread
  | ok a =>
      rw [reading_ok hread] at h
      cases h

theorem Raises.within {part : σ → τ} {replace : σ → τ → σ} {x : Operation τ α}
    (hx : Raises P x) : Raises P (within part replace x) := by
  intro s e t h
  cases hrun : x (part s) with
  | error f u =>
      rw [within_error hrun] at h
      cases h
      exact hx _ _ _ hrun
  | ok a u =>
      rw [within_ok hrun] at h
      cases h

theorem Raises.bind {x : Operation σ α} {f : α → Operation σ β} (hx : Raises P x)
    (hf : ∀ a, Raises P (f a)) : Raises P (x >>= f) := by
  intro s e t h
  cases hrun : x s with
  | error f u =>
      rw [bind_error hrun] at h
      cases h
      exact hx _ _ _ hrun
  | ok a u =>
      rw [bind_ok hrun] at h
      exact hf a u e t h

end Raising

/-! ## Properties that an operation keeps -/

/-- The property holds after the operation if it did before, whether or not the operation fails. -/
def Keeps (P : σ → Prop) (x : Operation σ α) : Prop := ∀ s, P s → P (x.after s)

variable {P : σ → Prop}

theorem Keeps.bind {x : Operation σ α} {f : α → Operation σ β} (hx : Keeps P x)
    (hf : ∀ a, Keeps P (f a)) : Keeps P (x >>= f) := by
  intro s hs
  have hafter := hx s hs
  cases h : x s with
  | ok a t =>
      rw [after_ok h] at hafter
      have hrest := hf a t hafter
      rwa [after, ← bind_ok (f := f) h] at hrest
  | error e t =>
      rw [after_error h] at hafter
      rwa [after_error (bind_error h)]

theorem Keeps.pure (a : α) : Keeps P (pure a) := fun _ hs => hs

theorem Keeps.lift (x : Except Error α) : Keeps P (lift x) := by
  cases x <;> exact fun _ hs => hs

theorem Keeps.reading (f : σ → Except Error α) : Keeps P (reading f) := by
  intro s hs
  cases h : f s with
  | ok a => rwa [after_ok (reading_ok h)]
  | error e => rwa [after_error (reading_error h)]

theorem Keeps.modify {f : σ → σ} (hf : ∀ s, P s → P (f s)) :
    Keeps P (modify f : Operation σ Unit) := hf

/-- An operation that looks at the whole state first. -/
theorem Keeps.get_bind {f : σ → Operation σ β} (hf : ∀ s, P s → P ((f s).after s)) :
    Keeps P (get >>= f) := hf

end Operation

/-! ## Failures that leave no trace -/

/-- The error is returned to the caller. An abort is not. -/
def Error.IsReturned : Error → Prop
  | .aborted _ => False
  | _ => True

namespace Operation

variable {σ α β : Type} {s t : σ} {a : α} {e : Error}

/-- An operation that returns an error has changed nothing. -/
def Traceless (x : Operation σ α) : Prop :=
  ∀ s e, x.result s = .error e → e.IsReturned → x.after s = s

/-- The operation looks at the state only. -/
def Observes (x : Operation σ α) : Prop := ∀ s, x.after s = s

/-- The operation returns no error. -/
def Completes (x : Operation σ α) : Prop := ∀ s e, x.result s = .error e → ¬ e.IsReturned

theorem result_ok {x : Operation σ α} (h : x s = .ok a t) : x.result s = .ok a := by
  rw [result, h]

theorem result_error {x : Operation σ α} (h : x s = .error e t) : x.result s = .error e := by
  rw [result, h]

theorem Observes.lift (x : Except Error α) : Observes (lift x : Operation σ α) := by
  intro s
  cases x <;> rfl

theorem Observes.reading (f : σ → Except Error α) : Observes (reading f) := by
  intro s
  cases h : f s with
  | ok a => exact after_ok (reading_ok h)
  | error e => exact after_error (reading_error h)

theorem Observes.throw (e : Error) : Observes (throw e : Operation σ α) := fun _ => rfl

theorem Observes.traceless {x : Operation σ α} (hx : Observes x) : Traceless x :=
  fun s _ _ _ => hx s

theorem Completes.traceless {x : Operation σ α} (hx : Completes x) : Traceless x :=
  fun s e herror hreturned => absurd hreturned (hx s e herror)

theorem Completes.pure (a : α) : Completes (pure a : Operation σ α) := by
  intro s e h
  cases h

theorem Completes.modify_bind {f : σ → σ} {g : Unit → Operation σ β} (hg : Completes (g ())) :
    Completes (modify f >>= g) := fun s => hg (f s)

/-- A check comes first. -/
theorem Traceless.check {x : Operation σ α} {f : α → Operation σ β} (hx : Observes x)
    (hf : ∀ a, Traceless (f a)) : Traceless (x >>= f) := by
  intro s e herror hreturned
  have hsame := hx s
  cases h : x s with
  | ok a t =>
      rw [after_ok h] at hsame
      subst hsame
      rw [result, bind_ok h, ← result] at herror
      rw [after, bind_ok h, ← after]
      exact hf a t e herror hreturned
  | error e' t =>
      rw [after_error h] at hsame
      rw [after_error (bind_error h), hsame]

/-- Nothing that comes later returns an error. -/
theorem Traceless.finish {x : Operation σ α} {f : α → Operation σ β} (hx : Traceless x)
    (hf : ∀ a, Completes (f a)) : Traceless (x >>= f) := by
  intro s e herror hreturned
  cases h : x s with
  | ok a t =>
      rw [result, bind_ok h, ← result] at herror
      exact absurd hreturned (hf a t e herror)
  | error e' t =>
      rw [result_error (bind_error h)] at herror
      obtain rfl := Except.error.inj herror
      rw [after_error (bind_error h), ← after_error h]
      exact hx s _ (result_error h) hreturned

end Operation

end Custody
