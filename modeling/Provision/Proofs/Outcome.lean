/-!
# Taking computations apart

A computation that may fail has succeeded when each of its parts has. The lemmas here go from the whole
to the parts, for `Except` and for computations on a state that may fail.
-/

namespace Provision

variable {ε σ α β : Type}

theorem Except.map_eq_ok {f : α → β} {x : Except ε α} {b : β} :
    x.map f = .ok b ↔ ∃ a, x = .ok a ∧ f a = b := by
  cases x with
  | error e => simp [Except.map]
  | ok a => simp [Except.map]

theorem Except.mapError_eq_ok {f : ε → β} {x : Except ε α} {a : α} : x.mapError f = .ok a ↔ x = .ok a := by
  cases x <;> constructor <;> intro h <;> cases h
  all_goals rfl

theorem Except.bind_eq_ok {x : Except ε α} {f : α → Except ε β} {b : β} :
    x >>= f = .ok b ↔ ∃ a, x = .ok a ∧ f a = .ok b := by
  cases x with
  | error e => simp [bind, Except.bind]
  | ok a => simp [bind, Except.bind]

theorem Except.bind_eq_error {x : Except ε α} {f : α → Except ε β} {e : ε} :
    x >>= f = .error e ↔ x = .error e ∨ ∃ a, x = .ok a ∧ f a = .error e := by
  cases x with
  | error e => simp [bind, Except.bind]
  | ok a => simp [bind, Except.bind]

/-- Both computations succeed, with results that `R` relates, or both fail, with faults that `F` relates. -/
def RelatedOutcome (F : ε → ε → Prop) (R : α → β → Prop) : Except ε α → Except ε β → Prop
  | .ok a, .ok b => R a b
  | .error e, .error e' => F e e'
  | _, _ => False

/-- Both computations give the same result, or both fail, with faults that `F` relates. -/
abbrev SameOutcome (F : ε → ε → Prop) : Except ε α → Except ε α → Prop :=
  RelatedOutcome F Eq

namespace RelatedOutcome

variable {α' β' : Type} {F : ε → ε → Prop} {R : α → α' → Prop} {S : β → β' → Prop}
  {x : Except ε α} {y : Except ε α'}

theorem bind {f : α → Except ε β} {g : α' → Except ε β'} (h : RelatedOutcome F R x y)
    (hfg : ∀ a b, R a b → RelatedOutcome F S (f a) (g b)) :
    RelatedOutcome F S (x >>= f) (y >>= g) := by
  cases x <;> cases y
  case ok.ok a b => exact hfg a b h
  case error.error e e' => exact h
  all_goals exact h.elim

theorem map {f : α → β} {g : α' → β'} (h : RelatedOutcome F R x y)
    (hfg : ∀ a b, R a b → S (f a) (g b)) : RelatedOutcome F S (x.map f) (y.map g) := by
  cases x <;> cases y
  case ok.ok a b => exact hfg a b h
  case error.error e e' => exact h
  all_goals exact h.elim

theorem imp {G : ε → ε → Prop} (h : RelatedOutcome F R x y) (hFG : ∀ e e', F e e' → G e e') :
    RelatedOutcome G R x y := by
  cases x <;> cases y
  case ok.ok a b => exact h
  case error.error e e' => exact hFG e e' h
  all_goals exact h.elim

end RelatedOutcome

theorem SameOutcome.eq {F : ε → ε → Prop} {x y : Except ε α} (h : SameOutcome F x y)
    (hF : ∀ e e', F e e' → e = e') : x = y := by
  cases x <;> cases y
  case ok.ok a b => exact congrArg Except.ok h
  case error.error e e' => exact congrArg Except.error (hF e e' h)
  all_goals exact h.elim

section

variable {x : ExceptT ε (StateM σ) α} {f : α → ExceptT ε (StateM σ) β}
  {h : ε → ExceptT ε (StateM σ) α} {a : α} {b : β} {e : ε} {s s' s'' : σ}

@[simp] theorem run_pure (a : α) (s : σ) :
    (pure a : ExceptT ε (StateM σ) α).run s = (.ok a, s) := rfl

@[simp] theorem run_throw (e : ε) (s : σ) :
    (throw e : ExceptT ε (StateM σ) α).run s = (.error e, s) := rfl

@[simp] theorem run_get (s : σ) : (get : ExceptT ε (StateM σ) σ).run s = (.ok s, s) := rfl

@[simp] theorem run_set (s s' : σ) :
    (set s' : ExceptT ε (StateM σ) PUnit).run s = (.ok ⟨⟩, s') := rfl

@[simp] theorem run_modify (g : σ → σ) (s : σ) :
    (modify g : ExceptT ε (StateM σ) PUnit).run s = (.ok ⟨⟩, g s) := rfl

theorem run_bind (x : ExceptT ε (StateM σ) α) (f : α → ExceptT ε (StateM σ) β) (s : σ) :
    (x >>= f).run s =
      match x.run s with
      | (.ok a, s') => (f a).run s'
      | (.error e, s') => (.error e, s') := by
  change ExceptT.bindCont f (x.run s).1 (x.run s).2 = _
  split <;> (rename_i hx; rw [hx]; rfl)

theorem run_bind_ok (hx : x.run s = (.ok a, s')) : (x >>= f).run s = (f a).run s' := by
  rw [run_bind, hx]

theorem run_bind_error (hx : x.run s = (.error e, s')) : (x >>= f).run s = (.error e, s') := by
  rw [run_bind, hx]

theorem run_bind_eq_ok :
    (x >>= f).run s = (.ok b, s'') ↔
      ∃ a s', x.run s = (.ok a, s') ∧ (f a).run s' = (.ok b, s'') := by
  constructor
  · intro h
    rcases hx : x.run s with ⟨_ | a, s'⟩
    · rw [run_bind_error hx] at h
      cases h
    · rw [run_bind_ok hx] at h
      exact ⟨a, s', rfl, h⟩
  · rintro ⟨a, s', hx, h⟩
    rw [run_bind_ok hx, h]

theorem run_map (g : α → β) (x : ExceptT ε (StateM σ) α) (s : σ) :
    (g <$> x).run s =
      match x.run s with
      | (.ok a, s') => (.ok (g a), s')
      | (.error e, s') => (.error e, s') := by
  rw [map_eq_pure_bind, run_bind]
  rfl

theorem run_map_ok (g : α → β) (hx : x.run s = (.ok a, s')) : (g <$> x).run s = (.ok (g a), s') := by
  rw [run_map, hx]

theorem run_map_error (g : α → β) (hx : x.run s = (.error e, s')) :
    (g <$> x).run s = (.error e, s') := by
  rw [run_map, hx]

theorem run_tryCatch_ok (hx : x.run s = (.ok a, s')) : (tryCatch x h).run s = (.ok a, s') := by
  change (match (x.run s).1 with
    | .ok a => pure (.ok a)
    | .error e => (h e).run : StateM σ (Except ε α)) (x.run s).2 = _
  rw [hx]
  rfl

theorem run_tryCatch_error (hx : x.run s = (.error e, s')) :
    (tryCatch x h).run s = (h e).run s' := by
  change (match (x.run s).1 with
    | .ok a => pure (.ok a)
    | .error e => (h e).run : StateM σ (Except ε α)) (x.run s).2 = _
  rw [hx]

/-! ### What holds whatever comes out -/

/-- Every failure of the computation is of the kind that `P` describes. -/
def FailsWith (P : ε → Prop) (x : ExceptT ε (StateM σ) α) : Prop :=
  ∀ s e s', x.run s = (.error e, s') → P e

namespace FailsWith

variable {P : ε → Prop}

theorem pure (a : α) : FailsWith P (pure a : ExceptT ε (StateM σ) α) := by
  intro s e s' hs
  cases hs

theorem bind (hx : FailsWith P x) (hf : ∀ a, FailsWith P (f a)) : FailsWith P (x >>= f) := by
  intro s e s' h
  rcases hs : x.run s with ⟨e₁ | a, s₁⟩
  · rw [run_bind_error hs] at h
    cases h
    exact hx s e s' hs
  · rw [run_bind_ok hs] at h
    exact hf a s₁ e s' h

end FailsWith

/-- The state after a computation is related to the state before, whether it fails or not. -/
def Preserves (R : σ → σ → Prop) (x : ExceptT ε (StateM σ) α) : Prop :=
  ∀ s, R s (x.run s).2

/-- The computation changes nothing. -/
abbrev ReadOnly (x : ExceptT ε (StateM σ) α) : Prop :=
  Preserves (fun s s' => s' = s) x

namespace Preserves

variable {R : σ → σ → Prop}

theorem of_run (hx : Preserves R x) {r : Except ε α} (h : x.run s = (r, s')) : R s s' := by
  have hs := hx s
  rwa [h] at hs

theorem pure (hr : ∀ s, R s s) (a : α) : Preserves R (pure a : ExceptT ε (StateM σ) α) := hr

theorem throw (hr : ∀ s, R s s) (e : ε) : Preserves R (throw e : ExceptT ε (StateM σ) α) := hr

theorem bind (ht : ∀ {s s' s''}, R s s' → R s' s'' → R s s'') (hx : Preserves R x)
    (hf : ∀ a, Preserves R (f a)) : Preserves R (x >>= f) := by
  intro s
  rcases hs : x.run s with ⟨e | a, s'⟩
  · rw [run_bind_error hs]
    exact hx.of_run hs
  · rw [run_bind_ok hs]
    exact ht (hx.of_run hs) (hf a s')

theorem map (g : α → β) (hx : Preserves R x) : Preserves R (g <$> x) := by
  intro s
  rcases hs : x.run s with ⟨e | a, s'⟩
  · rw [run_map_error g hs]
    exact hx.of_run hs
  · rw [run_map_ok g hs]
    exact hx.of_run hs

theorem tryCatch (ht : ∀ {s s' s''}, R s s' → R s' s'' → R s s'') (hx : Preserves R x)
    (hh : ∀ e, Preserves R (h e)) : Preserves R (tryCatch x h) := by
  intro s
  rcases hs : x.run s with ⟨e | a, s'⟩
  · rw [run_tryCatch_error hs]
    exact ht (hx.of_run hs) (hh e s')
  · rw [run_tryCatch_ok hs]
    exact hx.of_run hs

end Preserves

namespace ReadOnly

theorem pure (a : α) : ReadOnly (pure a : ExceptT ε (StateM σ) α) :=
  fun _ => rfl

theorem throw (e : ε) : ReadOnly (throw e : ExceptT ε (StateM σ) α) :=
  fun _ => rfl

theorem bind (hx : ReadOnly x) (hf : ∀ a, ReadOnly (f a)) : ReadOnly (x >>= f) :=
  Preserves.bind (fun h h' => h'.trans h) hx hf

theorem run_eq (hx : ReadOnly x) {r : Except ε α} (h : x.run s = (r, s')) : s = s' :=
  (hx.of_run h).symm

/-- Where the first part changes nothing, the answers are the same if those of both parts are. -/
theorem answer_bind (hx : ReadOnly x) (h : (x.run s').1 = (x.run s).1)
    (hf : ∀ a, ((f a).run s').1 = ((f a).run s).1) : ((x >>= f).run s').1 = ((x >>= f).run s).1 := by
  have hs := hx s
  have hs' := hx s'
  rcases h1 : x.run s with ⟨r, t⟩
  rcases h2 : x.run s' with ⟨r', t'⟩
  rw [h1] at h hs
  rw [h2] at h hs'
  obtain rfl : t = s := hs
  obtain rfl : t' = s' := hs'
  obtain rfl : r' = r := h
  cases r' with
  | error e => rw [run_bind_error h1, run_bind_error h2]
  | ok a => rw [run_bind_ok h1, run_bind_ok h2, hf]

theorem preserves {R : σ → σ → Prop} (hx : ReadOnly x) (hr : ∀ s, R s s) : Preserves R x := by
  intro s
  rw [hx s]
  exact hr s

end ReadOnly

/-- A computation that fails has changed nothing. -/
def AllOrNothing (x : ExceptT ε (StateM σ) α) : Prop :=
  ∀ s e s', x.run s = (.error e, s') → s' = s

namespace AllOrNothing

theorem pure (a : α) : AllOrNothing (pure a : ExceptT ε (StateM σ) α) := by
  intro s e s' h
  cases h

theorem throw (e : ε) : AllOrNothing (throw e : ExceptT ε (StateM σ) α) := by
  intro s e s' h
  cases h
  rfl

theorem modify (g : σ → σ) : AllOrNothing (modify g : ExceptT ε (StateM σ) PUnit) := by
  intro s e s' h
  cases h

theorem bind (hx : ReadOnly x) (hf : ∀ a, AllOrNothing (f a)) : AllOrNothing (x >>= f) := by
  intro s e s' h
  rcases hs : x.run s with ⟨e₁ | a, s₁⟩
  · have hsame := hx.run_eq hs
    rw [run_bind_error hs] at h
    cases h
    exact hsame.symm
  · obtain rfl := hx.run_eq hs
    rw [run_bind_ok hs] at h
    exact hf a s e s' h

end AllOrNothing

end

end Provision
