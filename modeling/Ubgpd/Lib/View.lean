import Mathlib.Logic.Function.Basic
import Mathlib.Data.List.Basic

/-!
# Views kept up to date by deltas

A view maps each key to a value or to nothing. A delta sets one key or clears it, and a list of
deltas is applied in order, so that for each key the last delta that names it decides
(`apply_of_last`) and a key that none names keeps its value (`apply_of_notMem`).
-/

namespace Ubgpd

variable {K V : Type} [DecidableEq K]

/-- One change of a view: set a key, or clear it. -/
abbrev Delta (K V : Type) := K × Option V

namespace Delta

/-- Apply deltas in order. -/
def apply (view : K → Option V) (ds : List (Delta K V)) : K → Option V :=
  ds.foldl (fun view d ↦ Function.update view d.1 d.2) view

@[simp] theorem apply_nil (view : K → Option V) : apply view [] = view := rfl

@[simp] theorem apply_cons (view : K → Option V) (d : Delta K V) (ds : List (Delta K V)) :
    apply view (d :: ds) = apply (Function.update view d.1 d.2) ds := rfl

theorem apply_append (view : K → Option V) (ds es : List (Delta K V)) :
    apply view (ds ++ es) = apply (apply view ds) es := List.foldl_append

theorem apply_of_notMem {view : K → Option V} {ds : List (Delta K V)} {k : K}
    (h : ∀ d ∈ ds, d.1 ≠ k) : apply view ds k = view k := by
  induction ds generalizing view with
  | nil => rfl
  | cons d ds ih =>
    rw [apply_cons, ih fun e he ↦ h e (List.mem_cons_of_mem d he),
      Function.update_of_ne (h d List.mem_cons_self).symm]

theorem apply_of_last {view : K → Option V} {ds es : List (Delta K V)} {k : K} {v : Option V}
    (h : ∀ d ∈ es, d.1 ≠ k) : apply view (ds ++ (k, v) :: es) k = v := by
  rw [apply_append, apply_cons, apply_of_notMem h, Function.update_self]

/-- Where no key is named twice, the delta that names a key decides. -/
theorem apply_of_mem {view : K → Option V} {ds : List (Delta K V)} {k : K} {v : Option V}
    (hnodup : (ds.map Prod.fst).Nodup) (h : (k, v) ∈ ds) : apply view ds k = v := by
  obtain ⟨ds₁, ds₂, rfl⟩ := List.append_of_mem h
  rw [List.map_append, List.map_cons] at hnodup
  have hfresh := (List.nodup_cons.mp (List.nodup_append.mp hnodup).2.1).1
  exact apply_of_last fun d hd hdk ↦ hfresh (List.mem_map.mpr ⟨d, hd, hdk⟩)

/-- Where the deltas that name a key agree, they decide. -/
theorem apply_of_agree {view : K → Option V} {ds : List (Delta K V)} {k : K} {v : Option V}
    (hmem : ∃ d ∈ ds, d.1 = k) (h : ∀ d ∈ ds, d.1 = k → d.2 = v) : apply view ds k = v := by
  induction ds generalizing view with
  | nil =>
    obtain ⟨d, hd, -⟩ := hmem
    exact absurd hd List.not_mem_nil
  | cons d ds ih =>
    rw [apply_cons]
    by_cases hlater : ∃ e ∈ ds, e.1 = k
    · exact ih hlater fun e he ↦ h e (List.mem_cons_of_mem d he)
    · -- the first delta is the only one
      obtain ⟨e, he, hek⟩ := hmem
      obtain rfl : e = d := (List.mem_cons.mp he).resolve_right fun he ↦ hlater ⟨e, he, hek⟩
      rw [apply_of_notMem fun e' he' hk ↦ hlater ⟨e', he', hk⟩, ← hek, Function.update_self]
      exact h e he hek

theorem apply_toList (view : K → Option V) (k : K) (o : Option V) :
    apply view (o.map fun v ↦ (k, some v)).toList = Function.update view k (o.or (view k)) := by
  match o with
  | none => exact (Function.update_eq_self k view).symm
  | some v => rfl

end Delta

end Ubgpd
