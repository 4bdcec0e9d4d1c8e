import FormulaColumn.LogRecord

/-!
# Computations with a log

`Logged` is a value together with the records of computing it. Running one
computation after another appends the records, so the log of a computation is
the order in which its parts were run. That is a law of the monad: how a
computation is split into parts does not change its log.
-/

namespace FormulaColumn

/-- **A value and the records of computing it**, the oldest first. -/
structure Logged (α : Type) where
  /-- The value. -/
  value : α
  /-- The records, the oldest first. -/
  log : List LogRecord

namespace Logged

variable {α β : Type}

/-- A value that nothing is recorded about. -/
protected def pure (value : α) : Logged α := ⟨value, []⟩

/-- One computation and then another that uses its value. -/
protected def bind (x : Logged α) (f : α → Logged β) : Logged β :=
  ⟨(f x.value).value, x.log ++ (f x.value).log⟩

instance : Monad Logged where
  pure := Logged.pure
  bind := Logged.bind

/-- One record. -/
def record (entry : LogRecord) : Logged Unit := ⟨(), [entry]⟩

@[simp] theorem value_pure (value : α) :
    (pure value : Logged α).value = value := rfl

@[simp] theorem log_pure (value : α) : (pure value : Logged α).log = [] := rfl

@[simp] theorem value_bind (x : Logged α) (f : α → Logged β) :
    (x >>= f).value = (f x.value).value := rfl

@[simp] theorem log_bind (x : Logged α) (f : α → Logged β) :
    (x >>= f).log = x.log ++ (f x.value).log := rfl

@[simp] theorem value_map (f : α → β) (x : Logged α) :
    (f <$> x).value = f x.value := rfl

@[simp] theorem log_map (f : α → β) (x : Logged α) :
    (f <$> x).log = x.log := List.append_nil x.log

@[simp] theorem value_record (entry : LogRecord) :
    (record entry).value = () := rfl

@[simp] theorem log_record (entry : LogRecord) :
    (record entry).log = [entry] := rfl

/-- **The order of the records does not depend on how a computation is
split** into parts. -/
instance : LawfulMonad Logged := LawfulMonad.mk' Logged
  (fun x => congrArg (Logged.mk x.value) (List.append_nil x.log))
  (fun _ _ => rfl)
  (fun x f g => congrArg (Logged.mk _)
    (List.append_assoc x.log (f x.value).log (g (f x.value).value).log))

theorem bind_eq_self {x : Logged α} {f : α → Logged α}
    (h : f x.value = pure x.value) : x >>= f = x := by
  show Logged.mk (f x.value).value (x.log ++ (f x.value).log) = x
  rw [h]
  exact congrArg (Logged.mk x.value) (List.append_nil x.log)

/-! ## Lists of computations -/

@[simp] theorem value_mapM (f : α → Logged β) (xs : List α) :
    (xs.mapM f).value = xs.map fun x => (f x).value := by
  induction xs with
  | nil => rfl
  | cons x xs ih => simp [List.mapM_cons, ih]

/-- **The log of computations that are run one after the other** is their
logs one after the other. -/
@[simp] theorem log_mapM (f : α → Logged β) (xs : List α) :
    (xs.mapM f).log = xs.flatMap fun x => (f x).log := by
  induction xs with
  | nil => rfl
  | cons x xs ih => simp [List.mapM_cons, ih]

theorem value_foldlM (f : β → α → Logged β) (start : β) (xs : List α) :
    (xs.foldlM f start).value
      = xs.foldl (fun current x => (f current x).value) start := by
  induction xs generalizing start with
  | nil => rfl
  | cons x xs ih => rw [List.foldlM_cons, value_bind, ih, List.foldl_cons]

end Logged

end FormulaColumn
