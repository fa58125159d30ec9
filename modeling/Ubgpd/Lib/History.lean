import Mathlib.Algebra.GroupWithZero.Nat
import Mathlib.Data.List.DropRight
import Mathlib.Data.List.Induction
import Mathlib.Tactic.Tauto

/-!
# The last writer

A table that is written by events, each of which takes some keys out and then puts some keys in.
Which keys are in it depends on the last event that touched them: `Remains` says that some event put
the key in and no later one took it out. `remains_append_singleton` is the step, and
`mem_foldl_iff_remains` the run: a table that starts empty holds the keys that remain.

A state that an event overwrites or leaves alone follows the last event that overwrote it
(`foldl_follows_last`), and so does each entry of a map (`get_foldl_iff_lastTouch`).

`Undone` is the negation for all keys: every event that puts a key in is followed by one that takes
it out.

An event may do both to a key. The order it does them in is then a choice: a table that takes out
first keeps the key, one that puts in first loses it. `agree_iff` says that two such tables agree as
long as the last event that touched a key did not do both.

A table that keeps a value as often as it was put in is a matter of counting: `tally` adds up what
was put in since the last event that took the value out. Events that do neither can be dropped
(`tally_filter`), so that two histories give one tally when they agree on the events that matter.
-/

namespace Ubgpd

variable {ε κ : Type} (adds dels : ε → κ → Prop)

/-- Some event put the key in, and no later one took it out. -/
def Remains (es : List ε) (k : κ) : Prop :=
  ∃ pre e post, es = pre ++ e :: post ∧ adds e k ∧ ∀ e' ∈ post, ¬dels e' k

/-- A state that only certain events touch follows the last of them. -/
theorem foldl_follows_last {τ β : Type} {f : τ → ε → τ} (key : ε → Option β)
    (follows : Option β → τ → Prop) (hsome : ∀ t e b, key e = some b → follows (some b) (f t e))
    (hnone : ∀ t e o, key e = none → follows o t → follows o (f t e)) {t : τ}
    (ht : follows none t) (es : List ε) :
    follows (es.filterMap key).getLast? (es.foldl f t) := by
  induction es using List.reverseRecOn with
  | nil => exact ht
  | append_singleton es e ih =>
    rw [List.foldl_append, List.foldl_cons, List.foldl_nil, List.filterMap_append]
    match he : key e with
    | none =>
      rw [List.filterMap_cons_none he, List.filterMap_nil, List.append_nil]
      exact hnone _ e _ he ih
    | some b =>
      rw [List.filterMap_cons_some he, List.filterMap_nil, List.getLast?_concat]
      exact hsome _ e b he

/-- Every key that was put in was taken out by a later event. -/
def Undone (es : List ε) : Prop :=
  ∀ pre e post, es = pre ++ e :: post → ∀ k, adds e k → ∃ e' ∈ post, dels e' k

theorem not_remains_nil (k : κ) : ¬Remains adds dels [] k := by
  rintro ⟨pre, e, post, h, -⟩
  exact List.append_ne_nil_of_right_ne_nil _ (List.cons_ne_nil _ _) h.symm

/-- **One more event.** -/
theorem remains_append_singleton (es : List ε) (e : ε) (k : κ) :
    Remains adds dels (es ++ [e]) k ↔ (Remains adds dels es k ∧ ¬dels e k) ∨ adds e k := by
  constructor
  · rintro ⟨pre, e₀, post, h, hadd, hdel⟩
    rcases List.eq_nil_or_concat post with rfl | ⟨post', e₁, rfl⟩
    · obtain ⟨-, h⟩ := List.append_inj' h rfl
      cases h
      exact Or.inr hadd
    · rw [List.concat_eq_append, ← List.cons_append, ← List.append_assoc] at h
      obtain ⟨rfl, rfl⟩ := List.append_singleton_inj.mp h
      exact Or.inl ⟨⟨pre, e₀, post', rfl, hadd, fun e' he' ↦
        hdel e' (by simp [he'])⟩, hdel e (by simp)⟩
  · rintro (⟨⟨pre, e₀, post, rfl, hadd, hdel⟩, hlast⟩ | hadd)
    · refine ⟨pre, e₀, post ++ [e], by simp, hadd, fun e' he' ↦ ?_⟩
      rcases List.mem_append.mp he' with he' | he'
      · exact hdel e' he'
      · rwa [List.mem_singleton.mp he']
    · exact ⟨es, e, [], rfl, hadd, fun _ h ↦ absurd h List.not_mem_nil⟩

theorem not_remains_append {es es' : List ε} {k : κ} (hadd : ∀ e ∈ es', ¬adds e k)
    (hdel : ∃ e ∈ es', dels e k) : ¬Remains adds dels (es ++ es') k := by
  induction es' using List.reverseRecOn with
  | nil => exact fun _ ↦ hdel.elim fun e he ↦ List.not_mem_nil he.1
  | append_singleton es' e ih =>
    rw [← List.append_assoc, remains_append_singleton]
    rintro (⟨h, hne⟩ | h)
    · obtain ⟨e', he', hdel⟩ := hdel
      rcases List.mem_append.mp he' with he' | he'
      · exact ih (fun e he ↦ hadd e (List.mem_append_left _ he)) ⟨e', he', hdel⟩ h
      · rw [List.mem_singleton.mp he'] at hdel
        exact hne hdel
    · exact hadd e (List.mem_append_right _ List.mem_cons_self) h

/-- A table that is empty at first and follows the events holds the keys that remain. -/
theorem mem_foldl_iff_remains {τ : Type} {f : τ → ε → τ} (mem : κ → τ → Prop)
    (hf : ∀ t e k, mem k (f t e) ↔ (mem k t ∧ ¬dels e k) ∨ adds e k) {t : τ}
    (ht : ∀ k, ¬mem k t) (es : List ε) (k : κ) :
    mem k (es.foldl f t) ↔ Remains adds dels es k := by
  induction es using List.reverseRecOn with
  | nil => exact iff_of_false (ht k) (not_remains_nil adds dels k)
  | append_singleton es e ih =>
    rw [List.foldl_append, List.foldl_cons, List.foldl_nil, hf, ih, remains_append_singleton]

theorem forall_not_remains {es : List ε} :
    (∀ k, ¬Remains adds dels es k) ↔ Undone adds dels es := by
  unfold Remains Undone
  constructor
  · intro h pre e post he k hadd
    by_contra hno
    exact h k ⟨pre, e, post, he, hadd, fun e' he' hd ↦ hno ⟨e', he', hd⟩⟩
  · rintro h k ⟨pre, e, post, he, hadd, hdel⟩
    obtain ⟨e', he', hd⟩ := h pre e post he k hadd
    exact hdel e' he' hd

/-! ## The last event that touched a key -/

/-- `e` touched the key, and no later event did. -/
def LastTouch (es : List ε) (k : κ) (e : ε) : Prop :=
  ∃ pre post, es = pre ++ e :: post ∧ (adds e k ∨ dels e k) ∧ ∀ e' ∈ post, ¬adds e' k ∧ ¬dels e' k

theorem lastTouch_append_singleton {es : List ε} {e e₀ : ε} {k : κ} :
    LastTouch adds dels (es ++ [e]) k e₀ ↔
      (adds e k ∨ dels e k) ∧ e = e₀ ∨ (¬adds e k ∧ ¬dels e k) ∧ LastTouch adds dels es k e₀ := by
  constructor
  · rintro ⟨pre, post, h, htouch, hno⟩
    rcases List.eq_nil_or_concat post with rfl | ⟨post', e₁, rfl⟩
    · obtain ⟨-, h⟩ := List.append_inj' h rfl
      cases h
      exact Or.inl ⟨htouch, rfl⟩
    · rw [List.concat_eq_append, ← List.cons_append, ← List.append_assoc] at h
      obtain ⟨rfl, rfl⟩ := List.append_singleton_inj.mp h
      exact Or.inr ⟨hno e (by simp), pre, post', rfl, htouch, fun e' he' ↦ hno e' (by simp [he'])⟩
  · rintro (⟨htouch, rfl⟩ | ⟨hlast, pre, post, rfl, htouch, hno⟩)
    · exact ⟨es, [], rfl, htouch, fun _ h ↦ absurd h List.not_mem_nil⟩
    · refine ⟨pre, post ++ [e], by simp, htouch, fun e' he' ↦ ?_⟩
      rcases List.mem_append.mp he' with he' | he'
      · exact hno e' he'
      · rwa [List.mem_singleton.mp he']

/-- What remains was put in by the event that touched it last. -/
theorem remains_iff_lastTouch {es : List ε} {k : κ} :
    Remains adds dels es k ↔ ∃ e, LastTouch adds dels es k e ∧ adds e k := by
  induction es using List.reverseRecOn with
  | nil =>
    refine iff_of_false (not_remains_nil adds dels k) ?_
    rintro ⟨e, ⟨pre, post, h, -⟩, -⟩
    exact List.append_ne_nil_of_right_ne_nil _ (List.cons_ne_nil _ _) h.symm
  | append_singleton es e ih =>
    simp only [remains_append_singleton, lastTouch_append_singleton, ih]
    by_cases ha : adds e k
    · simp [ha]
    · by_cases hd : dels e k
      · simp [ha, hd]
      · simp [ha, hd]

theorem LastTouch.unique {es : List ε} {k : κ} {e e' : ε} (h : LastTouch adds dels es k e)
    (h' : LastTouch adds dels es k e') : e = e' := by
  induction es using List.reverseRecOn with
  | nil =>
    obtain ⟨pre, post, h, -⟩ := h
    exact absurd h.symm (List.append_ne_nil_of_right_ne_nil _ (List.cons_ne_nil _ _))
  | append_singleton es e₀ ih =>
    rw [lastTouch_append_singleton] at h h'
    rcases h with ⟨ht, rfl⟩ | ⟨hn, h⟩
    · rcases h' with ⟨-, h'⟩ | ⟨hn, -⟩
      · exact h'
      · exact absurd ht (not_or.mpr hn)
    · rcases h' with ⟨ht, -⟩ | ⟨-, h'⟩
      · exact absurd ht (not_or.mpr hn)
      · exact ih h h'

/-- **The map of the last writers.** Events write the entries of the keys they put in, empty those
of the keys they take out, and leave the rest alone. An entry is then what the event that touched
its key last wrote there. -/
theorem get_foldl_iff_lastTouch {τ β : Type} {f : τ → ε → τ} {get : τ → κ → Option β} {val : ε → β}
    (hadd : ∀ t e k, adds e k → get (f t e) k = some (val e))
    (hdel : ∀ t e k, ¬adds e k → dels e k → get (f t e) k = none)
    (hframe : ∀ t e k, ¬adds e k → ¬dels e k → get (f t e) k = get t k) {t : τ}
    (ht : ∀ k, get t k = none) (es : List ε) (k : κ) (b : β) :
    get (es.foldl f t) k = some b ↔ ∃ e, LastTouch adds dels es k e ∧ adds e k ∧ val e = b := by
  induction es using List.reverseRecOn with
  | nil =>
    refine iff_of_false (fun h ↦ Option.some_ne_none b (h.symm.trans (ht k))) ?_
    rintro ⟨e, ⟨pre, post, h, -⟩, -⟩
    exact List.append_ne_nil_of_right_ne_nil _ (List.cons_ne_nil _ _) h.symm
  | append_singleton es e ih =>
    rw [List.foldl_append, List.foldl_cons, List.foldl_nil]
    simp only [lastTouch_append_singleton]
    by_cases ha : adds e k
    · rw [hadd _ e k ha, Option.some.injEq]
      simp [ha]
    · by_cases hd : dels e k
      · rw [hdel _ e k ha hd]
        simp [ha, hd]
      · rw [hframe _ e k ha hd, ih]
        simp [ha, hd]

/-- **Two orders in one event.** A table that takes out before it puts in and a table that puts in
before it takes out agree on a key exactly when the last event that touched it did not do both. -/
theorem agree_iff {es : List ε} {k : κ} :
    (Remains adds dels es k ↔ Remains (fun e k ↦ adds e k ∧ ¬dels e k) dels es k) ↔
      ∀ e, LastTouch adds dels es k e → adds e k → ¬dels e k := by
  have hsame : ∀ e, LastTouch (fun e k ↦ adds e k ∧ ¬dels e k) dels es k e ↔
      LastTouch adds dels es k e := by
    intro e
    have htouch : ∀ e', (adds e' k ∧ ¬dels e' k ∨ dels e' k) ↔ (adds e' k ∨ dels e' k) := by tauto
    have hnone : ∀ e', (¬(adds e' k ∧ ¬dels e' k) ∧ ¬dels e' k) ↔ (¬adds e' k ∧ ¬dels e' k) := by
      tauto
    unfold LastTouch
    simp only [htouch, hnone]
  simp only [remains_iff_lastTouch, hsame]
  constructor
  · rintro h e hlast hadd
    obtain ⟨e', hlast', -, hdel⟩ := h.mp ⟨e, hlast, hadd⟩
    rwa [hlast.unique adds dels hlast']
  · rintro h
    exact ⟨fun ⟨e, hlast, hadd⟩ ↦ ⟨e, hlast, hadd, h e hlast hadd⟩,
      fun ⟨e, hlast, hadd, _⟩ ↦ ⟨e, hlast, hadd⟩⟩

/-! ## Counting -/

section Tally

variable (clears : ε → Bool) (copies : ε → ℕ)

/-- What was put in since the last event that took everything out. -/
def tally (es : List ε) : ℕ := ((es.rtakeWhile fun e ↦ !clears e).map copies).sum

theorem tally_nil : tally clears copies [] = 0 := by
  rw [tally, List.rtakeWhile_nil, List.map_nil, List.sum_nil]

/-- **One more event.** -/
theorem tally_append_singleton (es : List ε) (e : ε) : tally clears copies (es ++ [e])
    = if clears e then 0 else tally clears copies es + copies e := by
  rw [tally, List.rtakeWhile_concat]
  by_cases he : clears e
  · simp [he]
  · simp [he, tally]

theorem count_foldl_eq_tally {τ : Type} {f : τ → ε → τ} {count : τ → ℕ}
    (hf : ∀ t e, count (f t e) = if clears e then 0 else count t + copies e) {t : τ}
    (ht : count t = 0) (es : List ε) : count (es.foldl f t) = tally clears copies es := by
  induction es using List.reverseRecOn with
  | nil => rw [List.foldl_nil, ht, tally_nil]
  | append_singleton es e ih =>
    rw [List.foldl_append, List.foldl_cons, List.foldl_nil, hf, ih, tally_append_singleton]

theorem tally_filter {matters : ε → Bool}
    (h : ∀ e, matters e = false → clears e = false ∧ copies e = 0) (es : List ε) :
    tally clears copies (es.filter matters) = tally clears copies es := by
  induction es using List.reverseRecOn with
  | nil => rfl
  | append_singleton es e ih =>
    rw [List.filter_append, tally_append_singleton, ← ih]
    by_cases he : matters e
    · rw [List.filter_cons_of_pos he, List.filter_nil, tally_append_singleton]
    · obtain ⟨hclear, hcopy⟩ := h e (Bool.eq_false_iff.mpr he)
      rw [List.filter_cons_of_neg he, List.filter_nil, List.append_nil, hclear, hcopy,
        if_neg Bool.false_ne_true, Nat.add_zero]

end Tally

end Ubgpd
