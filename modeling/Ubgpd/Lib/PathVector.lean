import Mathlib.Data.Finset.Card
import Mathlib.Data.List.Nodup

/-!
# Paths in a path-vector protocol

The nodes of a network pass paths on, and each puts itself in front of a path unless it is in it
already. `Propagated` are the paths that arise so from those that come from outside.

A propagated path is one from outside with a walk in front that meets no node twice and no node of
the path from outside (`propagated_iff`). So however long the network goes on, its nodes add at most
one entry each (`Propagated.length_le`).
-/

namespace Ubgpd

variable {α : Type} {nodes nodes' : α → Prop} {outside outside' : List α → Prop} {p q : List α}
  {x : α}

/-- The paths that arise from outside ones when each node prepends itself to paths without it. -/
inductive Propagated (nodes : α → Prop) (outside : List α → Prop) : List α → Prop
  | start {q : List α} (h : outside q) : Propagated nodes outside q
  | hop {p : List α} {x : α} (h : Propagated nodes outside p) (hx : nodes x) (hp : x ∉ p) :
    Propagated nodes outside (x :: p)

theorem Propagated.mono (h : Propagated nodes outside p) (hout : ∀ q, outside q → outside' q) :
    Propagated nodes outside' p := by
  induction h with
  | start h => exact start (hout _ h)
  | hop _ hx hp ih => exact ih.hop hx hp

/-- A walk over nodes in front of a path from outside, which never meets a node again. -/
structure Walk (nodes : α → Prop) (outside : List α → Prop) (hops q : List α) : Prop where
  outside : outside q
  nodup : hops.Nodup
  nodes : ∀ x ∈ hops, nodes x
  disjoint : ∀ x ∈ hops, x ∉ q

theorem Walk.cons {hops : List α} (h : Walk nodes outside hops q) (hx : nodes x)
    (hp : x ∉ hops ++ q) : Walk nodes outside (x :: hops) q where
  outside := h.outside
  nodup := List.nodup_cons.mpr ⟨fun hmem ↦ hp (List.mem_append_left q hmem), h.nodup⟩
  nodes := List.forall_mem_cons.mpr ⟨hx, h.nodes⟩
  disjoint :=
    List.forall_mem_cons.mpr ⟨fun hmem ↦ hp (List.mem_append_right hops hmem), h.disjoint⟩

theorem Walk.tail {hops : List α} (h : Walk nodes outside (x :: hops) q) :
    Walk nodes outside hops q where
  outside := h.outside
  nodup := (List.nodup_cons.mp h.nodup).2
  nodes := (List.forall_mem_cons.mp h.nodes).2
  disjoint := (List.forall_mem_cons.mp h.disjoint).2

/-- **Propagated paths** are walks in front of outside paths. -/
theorem propagated_iff :
    Propagated nodes outside p ↔ ∃ hops q, p = hops ++ q ∧ Walk nodes outside hops q := by
  constructor
  · intro h
    induction h with
    | @start q h =>
      exact ⟨[], q, rfl, h, List.nodup_nil, List.forall_mem_nil _, List.forall_mem_nil _⟩
    | @hop p x _ hx hp ih =>
      obtain ⟨hops, q, rfl, hwalk⟩ := ih
      exact ⟨x :: hops, q, rfl, hwalk.cons hx hp⟩
  · rintro ⟨hops, q, rfl, hwalk⟩
    induction hops with
    | nil => exact .start hwalk.outside
    | cons x hops ih =>
      have hfresh : x ∉ hops ++ q := by
        rw [List.mem_append, not_or]
        exact ⟨(List.nodup_cons.mp hwalk.nodup).1, hwalk.disjoint x List.mem_cons_self⟩
      exact (ih hwalk.tail).hop (hwalk.nodes x List.mem_cons_self) hfresh

/-- **Paths do not grow without bound**: at most by the number of nodes. -/
theorem Propagated.length_le [DecidableEq α] (h : Propagated nodes outside p) {s : Finset α}
    (hs : ∀ x, nodes x → x ∈ s) : ∃ q, outside q ∧ p.length ≤ s.card + q.length := by
  obtain ⟨hops, q, rfl, hwalk⟩ := propagated_iff.mp h
  refine ⟨q, hwalk.outside, ?_⟩
  have hcard : hops.toFinset.card ≤ s.card :=
    Finset.card_le_card fun x hx ↦ hs x (hwalk.nodes x (List.mem_toFinset.mp hx))
  rw [List.toFinset_card_of_nodup hwalk.nodup] at hcard
  rw [List.length_append]
  exact Nat.add_le_add_right hcard _

end Ubgpd
