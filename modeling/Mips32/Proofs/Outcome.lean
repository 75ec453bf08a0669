import Mips32.Fault

/-!
# Outcomes of computations

Every stage of the assembler is a computation in `Except`. The first lemmas take a success apart
into the successes it is made of, so that a proof about a run is a chain of `obtain` and never
unfolds the monad. `Settles` is about failure: a computation settles if it has a result or a fault,
so that it is not stopped by the size of a numeral. A sequence settles if its parts do.
-/

namespace Mips32

variable {ε δ α β : Type}

/-- A sequence succeeds exactly if both of its parts do. -/
theorem bind_eq_ok {x : Except ε α} {f : α → Except ε β} {b : β} :
    x >>= f = .ok b ↔ ∃ a, x = .ok a ∧ f a = .ok b := by
  cases x <;> simp [bind, Except.bind]

theorem map_eq_ok {x : Except ε α} {f : α → β} {b : β} :
    x.map f = .ok b ↔ ∃ a, x = .ok a ∧ f a = b := by
  cases x <;> simp [Except.map]

theorem exists_map_eq_ok {x : Except ε α} {f : α → β} :
    (∃ b, x.map f = .ok b) ↔ ∃ a, x = .ok a := by
  cases x <;> simp [Except.map]

/-- A success is told by the result alone. -/
theorem toOption_eq_some {x : Except ε α} {a : α} : x.toOption = some a ↔ x = .ok a := by
  cases x <;> simp [Except.toOption]

/-- Changing the failure changes no success. -/
theorem mapError_eq_ok {x : Except ε α} {f : ε → δ} {a : α} :
    x.mapError f = .ok a ↔ x = .ok a := by
  cases x with
  | error e => exact ⟨nofun, nofun⟩
  | ok b => exact ⟨fun h => congrArg _ (Except.ok.inj h), fun h => congrArg _ (Except.ok.inj h)⟩

theorem map_bind_eq (x : Except ε α) (f : α → β) {γ : Type} (g : β → Except ε γ) :
    x.map f >>= g = x >>= fun a => g (f a) :=
  bind_map_left f x g

theorem bind_map_eq (x : Except ε α) (f : α → Except ε β) {γ : Type} (g : β → γ) :
    (x >>= f).map g = x >>= fun a => (f a).map g :=
  map_bind g x f

/-- Sequences whose parts go together, up to a change of the results and to what is kept of a
failure, go together in the same way. -/
theorem mapError_bind_map {α' β' : Type} {x : Except ε α} {x' : Except ε α'} {g : α → Except ε β}
    {g' : α' → Except ε β'} {f : ε → δ} {t : α → α'} {u : β → β'}
    (hx : x'.mapError f = (x.map t).mapError f)
    (hg : ∀ a, (g' (t a)).mapError f = ((g a).map u).mapError f) :
    (x' >>= g').mapError f = ((x >>= g).map u).mapError f := by
  cases x with
  | error e =>
    cases x' with
    | error e' => exact congrArg Except.error (Except.error.inj hx)
    | ok b => cases hx
  | ok a =>
    cases x' with
    | error e' => cases hx
    | ok b =>
      obtain rfl : b = t a := Except.ok.inj hx
      exact hg a

/-- Sequences of parts that agree up to what is kept of a failure agree up to that. -/
theorem mapError_bind_congr {x y : Except ε α} {g h : α → Except ε β} {f : ε → δ}
    (hxy : x.mapError f = y.mapError f) (hgh : ∀ a, (g a).mapError f = (h a).mapError f) :
    (x >>= g).mapError f = (y >>= h).mapError f := by
  have hmap := @mapError_bind_map ε δ α β α β y x h g f id id
  simp only [Except.map_id, id] at hmap
  exact hmap hxy hgh

/-- A fault can be changed before it is taken for a failure or after. -/
theorem mapError_fault_map (x : Except ε α) (f : ε → δ) :
    (x.mapError Failure.fault).mapError (Failure.map f) =
      (x.mapError f).mapError Failure.fault := by
  cases x <;> rfl

/-- Two computations that go together up to what is kept of a fault: both have results, both a
fault, or both are stopped by the same numeral. -/
theorem cases_of_mapError_eq_map {α' : Type} {x : Except (Failure ε) α}
    {x' : Except (Failure ε) α'} {f : ε → δ} {t : α → α'}
    (h : x'.mapError (Failure.map f) = (x.map t).mapError (Failure.map f)) :
    (∃ a, x = .ok a ∧ x' = .ok (t a)) ∨
      (∃ d d', x = .error (.fault d) ∧ x' = .error (.fault d') ∧ f d' = f d) ∨
      ∃ count, x = .error (.tooManyDigits count) ∧ x' = .error (.tooManyDigits count) := by
  cases x with
  | ok a => exact .inl ⟨a, rfl, mapError_eq_ok.1 h⟩
  | error e =>
    cases x' with
    | ok a => cases h
    | error e' =>
      have hfailure : e'.map f = e.map f := Except.error.inj h
      cases e with
      | fault d =>
        cases e' with
        | fault d' => exact .inr (.inl ⟨d, d', rfl, rfl, Failure.fault.inj hfailure⟩)
        | tooManyDigits count => cases hfailure
      | tooManyDigits count =>
        cases e' with
        | fault d => cases hfailure
        | tooManyDigits count' =>
          obtain rfl := Failure.tooManyDigits.inj hfailure
          exact .inr (.inr ⟨_, rfl, rfl⟩)

theorem pure_eq_ok {a b : α} : (pure a : Except ε α) = .ok b ↔ a = b := by
  simp [pure, Except.pure]

/-! ## Computations that settle -/

/-- A computation that is not stopped by the size of a numeral. -/
def Settles (x : Except (Failure ε) α) : Prop :=
  ∀ count, x ≠ .error (.tooManyDigits count)

theorem settles_ok (a : α) : Settles (.ok a : Except (Failure ε) α) :=
  nofun

theorem settles_fault (cause : ε) : Settles (.error (.fault cause) : Except (Failure ε) α) :=
  nofun

/-- A computation whose only failures are faults settles. -/
theorem settles_mapError (x : Except ε α) : Settles (x.mapError Failure.fault) := by
  cases x with
  | error cause => exact settles_fault cause
  | ok a => exact settles_ok a

namespace Settles

variable {x : Except (Failure ε) α}

theorem bind {f : α → Except (Failure ε) β} (hx : Settles x) (hf : ∀ a, Settles (f a)) :
    Settles (x >>= f) := by
  cases x with
  | ok a => exact hf a
  | error e =>
    intro count h
    cases h
    exact hx count rfl

theorem map (hx : Settles x) (f : α → β) : Settles (x.map f) := by
  cases x with
  | ok a => exact settles_ok (f a)
  | error e =>
    intro count h
    cases h
    exact hx count rfl

end Settles

/-! ## Classes of faults -/

/-- A computation that fails with a fault of a class. -/
def Raises (x : Except (Failure Fault) α) (kind : Fault.Kind) : Prop :=
  ∃ fault, x = .error (.fault fault) ∧ fault.kind = kind

variable {kind : Fault.Kind}

@[simp] theorem not_raises_ok (a : α) : ¬Raises (.ok a) kind :=
  nofun

@[simp] theorem raises_fault_iff {fault : Fault} :
    Raises (.error (.fault fault) : Except (Failure Fault) α) kind ↔ kind = fault.kind :=
  ⟨fun ⟨_, heq, hkind⟩ => by cases heq; exact hkind.symm, fun h => ⟨fault, rfl, h.symm⟩⟩

/-- A sequence fails as its first part, or as its second after the first has succeeded. -/
theorem raises_bind_iff {x : Except (Failure Fault) α} {f : α → Except (Failure Fault) β} :
    Raises (x >>= f) kind ↔ Raises x kind ∨ ∃ a, x = .ok a ∧ Raises (f a) kind := by
  cases x with
  | error e => simp [bind, Except.bind, Raises]
  | ok a => simp [bind, Except.bind]

theorem raises_map_iff {x : Except (Failure Fault) α} (f : α → β) :
    Raises (x.map f) kind ↔ Raises x kind := by
  cases x with
  | error e => simp [Except.map, Raises]
  | ok a => simp [Except.map]

/-- A computation that settles succeeds exactly if it fails with a fault of no class. -/
theorem Settles.exists_ok_iff {x : Except (Failure Fault) α} (h : Settles x) :
    (∃ a, x = .ok a) ↔ ∀ kind, ¬Raises x kind := by
  cases x with
  | ok a => exact iff_of_true ⟨a, rfl⟩ fun _ => not_raises_ok a
  | error e =>
    cases e with
    | fault fault => exact iff_of_false nofun fun hno => hno fault.kind ⟨fault, rfl, rfl⟩
    | tooManyDigits count => exact absurd rfl (h count)

end Mips32
