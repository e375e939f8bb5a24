import Custody.Error
import Custody.Store.Basic

/-!
# Operations

State changes that may fail. A failed operation keeps what it changed before it failed.
-/

namespace Custody

abbrev Operation (σ α : Type) := EStateM Error σ α

namespace Operation

def lift (x : Except Error α) : Operation σ α :=
  match x with
  | .ok a => pure a
  | .error e => throw e

/-- Reads without changing anything. -/
def reading (f : σ → Except Error α) : Operation σ α := fun s =>
  match f s with
  | .ok a => .ok a s
  | .error e => .error e s

/-- Runs an operation on a part of the state. -/
def within (part : σ → τ) (replace : σ → τ → σ) (x : Operation τ α) : Operation σ α := fun s =>
  match x (part s) with
  | .ok a t => .ok a (replace s t)
  | .error e t => .error e (replace s t)

/-- What comes of an operation, apart from the state. -/
def result (x : Operation σ α) (s : σ) : Except Error α :=
  match x s with
  | .ok a _ => .ok a
  | .error e _ => .error e

/-- The state after an operation, whether or not it failed. -/
def after (x : Operation σ α) (s : σ) : σ :=
  match x s with
  | .ok _ t => t
  | .error _ t => t

end Operation

/-- Sets a value that might be empty, which the store does not take. -/
def Store.save (key value : Bytes) : Operation Store Unit := do
  if value = [] then throw (.aborted .emptyValue) else modify (·.insert key value)

end Custody
