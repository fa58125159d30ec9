import Mathlib.Logic.Basic

/-!
# Outcomes of a call

A call of the modelled program returns a value, returns an error, or panics. The three are kept
apart: an error is handled by the caller, whereas a panic ends the task that made the call.

The monad is the evident one, and the `simp` lemmas below evaluate a `do` block on a concrete
head. `bind_eq_ok` is the inversion rule the parsers use: a block that returns a value has
returned a value at each of its steps.
-/

namespace Ubgpd

/-- What a call does: it returns a value, it returns an error, or it panics. -/
inductive Outcome (ε α : Type) where
  | ok (a : α)
  | err (e : ε)
  | panic
deriving DecidableEq, Repr

namespace Outcome

variable {ε ε' α β : Type}

/-- Sequencing: errors and panics end the block. -/
protected def bind (x : Outcome ε α) (f : α → Outcome ε β) : Outcome ε β :=
  match x with
  | ok a => f a
  | err e => err e
  | panic => panic

instance : Monad (Outcome ε) where
  pure := ok
  bind := Outcome.bind

@[simp] theorem pure_eq (a : α) : (pure a : Outcome ε α) = ok a := rfl

@[simp] theorem ok_bind (a : α) (f : α → Outcome ε β) : (ok a >>= f) = f a := rfl

@[simp] theorem err_bind (e : ε) (f : α → Outcome ε β) : (err e >>= f) = err e := rfl

@[simp] theorem panic_bind (f : α → Outcome ε β) : (panic >>= f) = panic := rfl

theorem ok_ne_panic (a : α) : (ok a : Outcome ε α) ≠ panic := nofun

theorem err_ne_panic (e : ε) : (err e : Outcome ε α) ≠ panic := nofun

theorem err_ne_ok (e : ε) (a : α) : (err e : Outcome ε α) ≠ ok a := nofun

instance : LawfulMonad (Outcome ε) :=
  LawfulMonad.mk' _ (fun x ↦ by cases x <;> rfl) (fun _ _ ↦ rfl) (fun x _ _ ↦ by cases x <;> rfl)

/-- **Inversion.** A block that returns a value returned a value at its first step. -/
theorem bind_eq_ok {x : Outcome ε α} {f : α → Outcome ε β} {b : β} :
    (x >>= f) = ok b ↔ ∃ a, x = ok a ∧ f a = ok b := by
  cases x with
  | ok a => simp
  | err e => simp
  | panic => simp

theorem mapM_eq_ok {f : α → Outcome ε β} {g : α → β} {l : List α} (h : ∀ a ∈ l, f a = ok (g a)) :
    l.mapM f = ok (l.map g) := by
  induction l with
  | nil => rfl
  | cons a l ih =>
    rw [List.mapM_cons, h a List.mem_cons_self, ok_bind,
      ih fun b hb ↦ h b (List.mem_cons_of_mem a hb)]
    rfl

theorem exists_of_mapM_eq_ok {f : α → Outcome ε β} {l : List α} : ∀ {l' : List β},
    l.mapM f = ok l' → ∀ b ∈ l', ∃ a ∈ l, f a = ok b := by
  induction l with
  | nil =>
    intro l' h b hb
    rw [← ok.inj h] at hb
    exact absurd hb List.not_mem_nil
  | cons a l ih =>
    intro l' h b hb
    rw [List.mapM_cons] at h
    obtain ⟨c, hc, h⟩ := bind_eq_ok.mp h
    obtain ⟨cs, hcs, h⟩ := bind_eq_ok.mp h
    rw [← ok.inj h] at hb
    rcases List.mem_cons.mp hb with rfl | hb
    · exact ⟨a, List.mem_cons_self, hc⟩
    · obtain ⟨a', ha', hf⟩ := ih hcs b hb
      exact ⟨a', List.mem_cons_of_mem a ha', hf⟩

theorem bind_eq_ok_congr {x : Outcome ε α} {f g : α → Outcome ε β} {b : β}
    (h : ∀ a, x = ok a → (f a = ok b ↔ g a = ok b)) : (x >>= f) = ok b ↔ (x >>= g) = ok b := by
  rw [bind_eq_ok, bind_eq_ok]
  exact exists_congr fun a ↦ and_congr_right (h a)

theorem bind_eq_panic {x : Outcome ε α} {f : α → Outcome ε β} :
    (x >>= f) = panic ↔ x = panic ∨ ∃ a, x = ok a ∧ f a = panic := by
  cases x with
  | ok a => simp
  | err e => simp
  | panic => simp

theorem bind_ne_panic {x : Outcome ε α} {f : α → Outcome ε β} (hx : x ≠ panic)
    (hf : ∀ a, f a ≠ panic) : (x >>= f) ≠ panic := by
  intro h
  rcases bind_eq_panic.mp h with h | ⟨a, -, h⟩
  · exact hx h
  · exact hf a h

theorem bind_ok_eq_panic {x : Outcome ε α} {f : α → β} :
    (x >>= fun a ↦ ok (f a)) = panic ↔ x = panic := by
  rw [bind_eq_panic]
  refine or_iff_left ?_
  rintro ⟨a, -, hpanic⟩
  cases hpanic

theorem exists_bind_ok_iff {γ : Type} {x : Outcome ε α} {f : α → β} {g : β → γ} {c : γ} :
    (∃ b, (x >>= fun a ↦ ok (f a)) = ok b ∧ g b = c) ↔ ∃ a, x = ok a ∧ g (f a) = c := by
  constructor
  · rintro ⟨b, hb, rfl⟩
    obtain ⟨a, ha, hb⟩ := bind_eq_ok.mp hb
    exact ⟨a, ha, by rw [ok.inj hb]⟩
  · rintro ⟨a, rfl, rfl⟩
    exact ⟨f a, rfl, rfl⟩

/-- `Result::map_err`. -/
def mapErr (f : ε → ε') : Outcome ε α → Outcome ε' α
  | ok a => ok a
  | err e => err (f e)
  | panic => panic

@[simp] theorem mapErr_ok (f : ε → ε') (a : α) : mapErr f (ok a) = ok a := rfl

theorem mapErr_eq_ok {f : ε → ε'} {x : Outcome ε α} {a : α} :
    mapErr f x = ok a ↔ x = ok a := by
  cases x <;> simp [mapErr]

@[simp] theorem mapErr_eq_panic {f : ε → ε'} {x : Outcome ε α} :
    mapErr f x = panic ↔ x = panic := by
  cases x <;> simp [mapErr]

/-- `Option::unwrap`: panics on `none`. -/
def unwrap : Option α → Outcome ε α
  | some a => ok a
  | none => panic

@[simp] theorem unwrap_some (a : α) : (unwrap (some a) : Outcome ε α) = ok a := rfl

@[simp] theorem unwrap_none : (unwrap (none : Option α) : Outcome ε α) = panic := rfl

theorem unwrap_eq_ok {o : Option α} {a : α} : (unwrap o : Outcome ε α) = ok a ↔ o = some a := by
  cases o <;> simp

@[simp] theorem unwrap_eq_panic {o : Option α} : (unwrap o : Outcome ε α) = panic ↔ o = none := by
  cases o <;> simp

/-- `Option::ok_or_else`: turns `none` into an error. -/
def okOr (o : Option α) (e : ε) : Outcome ε α :=
  match o with
  | some a => ok a
  | none => err e

@[simp] theorem okOr_some (a : α) (e : ε) : okOr (some a) e = ok a := rfl

theorem okOr_eq_ok {o : Option α} {e : ε} {a : α} : okOr o e = ok a ↔ o = some a := by
  cases o <;> simp [okOr]

theorem okOr_ne_panic {o : Option α} {e : ε} : okOr o e ≠ panic := by
  cases o <;> simp [okOr]

/-- `Result::unwrap_or_default`, with the default given: an error is replaced, a panic is not. -/
def unwrapOr (x : Outcome ε α) (d : α) : Outcome ε' α :=
  match x with
  | ok a => ok a
  | err _ => ok d
  | panic => panic

theorem unwrapOr_eq_ok {x : Outcome ε α} {d a : α} : (unwrapOr x d : Outcome ε' α) = ok a ↔
    x = ok a ∨ (∃ e, x = err e) ∧ d = a := by
  cases x <;> simp [unwrapOr]

theorem default_eq_iff_of_unwrapOr {x : Outcome ε α} {d a : α}
    (h : x = ok a ∨ (∃ e, x = err e) ∧ d = a) : d = a ↔ ∀ b, x = ok b → b = d := by
  constructor
  · rintro rfl b hb
    rcases h with h | ⟨⟨e, he⟩, -⟩
    · exact ok.inj (hb.symm.trans h)
    · exact absurd (he.symm.trans hb) nofun
  · intro hall
    rcases h with h | ⟨-, h⟩
    · exact (hall a h).symm
    · exact h

/-- `assert`-like guard of a slice or index operation: panics unless the condition holds. -/
def orPanic (p : Prop) [Decidable p] (a : α) : Outcome ε α := if p then ok a else panic

theorem orPanic_eq_ok {p : Prop} [Decidable p] {a b : α} :
    (orPanic p a : Outcome ε α) = ok b ↔ p ∧ a = b := by
  rw [orPanic]
  split <;> simp [*]

@[simp] theorem orPanic_eq_panic {p : Prop} [Decidable p] {a : α} :
    (orPanic p a : Outcome ε α) = panic ↔ ¬p := by
  rw [orPanic]
  split <;> simp [*]

/-! ## Two calls that do the same -/

/-- Both return an error, or both a value and what is looked at of the values is the same. -/
def Agree {γ : Type} (f : α → γ) (g : β → γ) : Outcome ε α → Outcome ε' β → Prop
  | ok a, ok b => f a = g b
  | err _, err _ => True
  | _, _ => False

theorem agree_comm {γ : Type} {f : α → γ} {g : β → γ} {x : Outcome ε α} {y : Outcome ε' β} :
    Agree f g x y ↔ Agree g f y x := by
  match x, y with
  | ok a, ok b => exact eq_comm
  | err _, err _ => exact Iff.rfl
  | ok _, err _ | ok _, panic | err _, ok _ | err _, panic => exact Iff.rfl
  | panic, ok _ | panic, err _ | panic, panic => exact Iff.rfl

/-- Two calls that return the same values, the second without panicking, agree as long as the first
does not panic either. -/
theorem agree_iff_ne_panic {γ : Type} {f : α → γ} {g : β → γ} {x : Outcome ε α}
    {y : Outcome ε' β} (hy : y ≠ panic)
    (h : ∀ c, (∃ a, x = ok a ∧ f a = c) ↔ ∃ b, y = ok b ∧ g b = c) :
    Agree f g x y ↔ x ≠ panic := by
  match x, y, hy, h with
  | ok a, ok b, _, h =>
    obtain ⟨b', hb, hc⟩ := (h (f a)).mp ⟨a, rfl, rfl⟩
    rw [← ok.inj hb] at hc
    exact iff_of_true hc.symm nofun
  | ok a, err e, _, h =>
    obtain ⟨b, hb, -⟩ := (h (f a)).mp ⟨a, rfl, rfl⟩
    exact nomatch hb
  | err e, ok b, _, h =>
    obtain ⟨a, ha, -⟩ := (h (g b)).mpr ⟨b, rfl, rfl⟩
    exact nomatch ha
  | err e, err e', _, _ => exact iff_of_true trivial nofun
  | panic, ok b, _, h =>
    obtain ⟨a, ha, -⟩ := (h (g b)).mpr ⟨b, rfl, rfl⟩
    exact nomatch ha
  | panic, err e, _, _ => exact iff_of_false id (fun hne ↦ hne rfl)
  | x, panic, hy, _ => exact absurd rfl hy

/-! ## Calls without errors -/

/-- The call returns a value or panics. -/
def Infallible (x : Outcome ε α) : Prop := ∀ e, x ≠ err e

theorem infallible_ok (a : α) : (ok a : Outcome ε α).Infallible := nofun

theorem infallible_panic : (panic : Outcome ε α).Infallible := nofun

theorem infallible_unwrap (o : Option α) : (unwrap o : Outcome ε α).Infallible := by
  cases o <;> exact nofun

theorem infallible_unwrapOr (x : Outcome ε α) (d : α) :
    (unwrapOr x d : Outcome ε' α).Infallible := by
  cases x <;> exact nofun

theorem infallible_orPanic (p : Prop) [Decidable p] (a : α) :
    (orPanic p a : Outcome ε α).Infallible := by
  rw [orPanic]
  split <;> exact nofun

theorem Infallible.bind {x : Outcome ε α} {f : α → Outcome ε β} (hx : x.Infallible)
    (hf : ∀ a, (f a).Infallible) : (x >>= f).Infallible := by
  cases x with
  | ok a => exact hf a
  | err e => exact absurd rfl (hx e)
  | panic => exact nofun

theorem Infallible.bind_eq_panic {x : Outcome ε α} {f : α → Outcome ε β} (hx : x.Infallible)
    (hf : ∀ a, f a = panic) : (x >>= f) = panic := by
  match x, hx with
  | ok a, _ => exact hf a
  | err e, hx => exact absurd rfl (hx e)
  | panic, _ => rfl

theorem Infallible.mapM {f : α → Outcome ε β} (h : ∀ a, (f a).Infallible) (l : List α) :
    (l.mapM f).Infallible := by
  induction l with
  | nil => exact infallible_ok _
  | cons a l ih =>
    rw [List.mapM_cons]
    exact (h a).bind fun b ↦ ih.bind fun bs ↦ infallible_ok _

theorem mapM_eq_panic {f : α → Outcome ε β} (h : ∀ a, (f a).Infallible) (l : List α) :
    l.mapM f = panic ↔ ∃ a ∈ l, f a = panic := by
  induction l with
  | nil =>
    rw [List.mapM_nil]
    exact iff_of_false nofun fun ⟨a, ha, _⟩ ↦ List.not_mem_nil ha
  | cons a l ih =>
    have hrest (b : β) : (l.mapM f >>= fun bs ↦ pure (b :: bs)) = panic ↔ l.mapM f = panic := by
      rw [bind_eq_panic]
      exact or_iff_left fun ⟨_, _, hp⟩ ↦ nomatch hp
    rw [List.mapM_cons, bind_eq_panic]
    simp only [List.mem_cons, exists_eq_or_imp, ← ih]
    cases hfa : f a with
    | ok b => simpa using hrest b
    | err e => exact absurd hfa (h a e)
    | panic => simp

theorem Infallible.ne_panic_iff {x : Outcome ε α} (hx : x.Infallible) :
    x ≠ panic ↔ ∃ a, x = ok a := by
  cases x with
  | ok a => simp
  | err e => exact absurd rfl (hx e)
  | panic => simp

end Outcome

end Ubgpd
