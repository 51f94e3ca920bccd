/-!
# Programs that keep their state on failure

A program that fails leaves the state as it stood when it failed: what it has moved or
stored until then stays moved and stored. What it is refused for and what it leaves are
one pair, and one equation says how a sequence of two programs goes on, or does not.

## Main results

* `runFrom_bind_of_ok` — behind a program that ended the next one begins.
* `runFrom_bind_of_error` — behind one that failed nothing is done.
-/

namespace Coap

/-- A program over a state, which it leaves behind also where it fails. -/
abbrev Stateful (ε σ : Type) := ExceptT ε (StateM σ)

namespace Stateful

variable {ε σ α β : Type} {s s' : σ}

/-- What a program that begins in a state comes to, and the state it leaves. -/
def runFrom (x : Stateful ε σ α) (s : σ) : Except ε α × σ := x.run.run s

theorem runFrom_get_bind (f : σ → Stateful ε σ α) (s : σ) :
    runFrom (get >>= f) s = runFrom (f s) s := rfl

theorem runFrom_bind_of_ok {x : Stateful ε σ α} {a : α} (h : x.runFrom s = (.ok a, s'))
    (f : α → Stateful ε σ β) : runFrom (x >>= f) s = (f a).runFrom s' := by
  rw [runFrom] at h
  rw [runFrom, ExceptT.run_bind, StateT.run_bind, h]
  rfl

theorem runFrom_bind_of_error {x : Stateful ε σ α} {e : ε}
    (h : x.runFrom s = (.error e, s')) (f : α → Stateful ε σ β) :
    runFrom (x >>= f) s = (.error e, s') := by
  rw [runFrom] at h
  rw [runFrom, ExceptT.run_bind, StateT.run_bind, h]
  rfl

/-- Go on only if a condition holds. -/
def require (p : Prop) [Decidable p] (e : ε) : Stateful ε σ Unit :=
  if p then return () else throw e

theorem runFrom_require_of {p : Prop} [Decidable p] {e : ε} (h : p) :
    (require p e).runFrom s = (.ok (), s) := by
  rw [require, if_pos h]
  rfl

theorem runFrom_require_of_not {p : Prop} [Decidable p] {e : ε} (h : ¬p) :
    (require p e).runFrom s = (.error e, s) := by
  rw [require, if_neg h]
  rfl

/-- Go on only with what was answered. -/
def accept : Except ε α → Stateful ε σ α
  | .ok a => return a
  | .error e => throw e

theorem runFrom_accept (r : Except ε α) : (accept r).runFrom s = (r, s) := by
  cases r <;> rfl

end Stateful

end Coap
