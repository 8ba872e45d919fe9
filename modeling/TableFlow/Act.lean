namespace TableFlow

/-- A result or an error, with the state after it in both cases. -/
abbrev Act (σ ε α : Type) := ExceptT ε (StateM σ) α

namespace Act

variable {σ τ ε δ α : Type}

def ofFun (f : σ → Except ε α × σ) : Act σ ε α := ExceptT.mk (f : StateM σ (Except ε α))

def runFrom (s : σ) (a : Act σ ε α) : Except ε α × σ :=
  (ExceptT.run a : StateM σ (Except ε α)).run s

def ofExcept : Except ε α → Act σ ε α
  | .ok a => pure a
  | .error e => throw e

def mapError (f : ε → δ) (a : Act σ ε α) : Act σ δ α :=
  ofFun fun s => let r := runFrom s a; (r.1.mapError f, r.2)

def focus (get : σ → τ) (set : τ → σ → σ) (a : Act τ ε α) : Act σ ε α :=
  ofFun fun s => let r := runFrom (get s) a; (r.1, set r.2 s)

def attempt (a : Act σ ε α) : Act σ δ (Except ε α) :=
  ofFun fun s => let r := runFrom s a; (.ok r.1, r.2)

@[simp] theorem runFrom_ofFun (f : σ → Except ε α × σ) (s : σ) : runFrom s (ofFun f) = f s := rfl

@[simp] theorem runFrom_pure (a : α) (s : σ) : runFrom s (pure a : Act σ ε α) = (.ok a, s) := rfl

@[simp] theorem runFrom_throw (e : ε) (s : σ) : runFrom s (throw e : Act σ ε α) = (.error e, s) :=
  rfl

@[simp] theorem runFrom_get (s : σ) : runFrom s (get : Act σ ε σ) = (.ok s, s) := rfl

@[simp] theorem runFrom_set (t s : σ) : runFrom s (set t : Act σ ε PUnit) = (.ok ⟨⟩, t) := rfl

@[simp] theorem runFrom_modify (f : σ → σ) (s : σ) :
    runFrom s (modify f : Act σ ε Unit) = (.ok (), f s) := rfl

theorem runFrom_bind (a : Act σ ε α) {β : Type} (f : α → Act σ ε β) (s : σ) :
    runFrom s (a >>= f) = match runFrom s a with
      | (.ok x, s') => runFrom s' (f x)
      | (.error e, s') => (.error e, s') := by
  change (ExceptT.bindCont f (runFrom s a).1) (runFrom s a).2 = _
  rcases runFrom s a with ⟨r, s'⟩
  cases r <;> rfl

end Act
end TableFlow
