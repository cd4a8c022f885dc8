import Mathlib.Data.List.Basic
import Mathlib.Tactic.Common

/-!
# A register that settles later

A register keeps the versions written to it, oldest first. Reading it gives the
last one. Some versions have settled; the others are pending, and settle in
order at some later moment. After a loss only the settled ones are left.

Two facts carry everything built on it. Settling changes no version
(`versions_settle`), so what is read depends on the writes alone. And a version
is recovered, or a later one is, exactly when it is no longer pending
(`recovered_mem_of_not_pending`, `recovered_mem_of_pending`).
-/

namespace KgaGateway

universe u

/-- The versions written, those that have settled and those that have not. -/
structure Register (α : Type u) : Type u where
  settled : List α
  pending : List α

namespace Register

variable {α : Type u}

/-- All versions, oldest first. -/
def versions (r : Register α) : List α := r.settled ++ r.pending

/-- What is read. -/
def current (r : Register α) : Option α := r.versions.getLast?

/-- What is left after a loss. -/
def recovered (r : Register α) : Option α := r.settled.getLast?

/-- Write a version. -/
def push (r : Register α) (a : α) : Register α := ⟨r.settled, r.pending ++ [a]⟩

/-- The oldest pending version settles. -/
def settle (r : Register α) : Register α :=
  match r.pending with
  | [] => r
  | a :: rest => ⟨r.settled ++ [a], rest⟩

@[simp] theorem versions_push (r : Register α) (a : α) :
    (r.push a).versions = r.versions ++ [a] := by
  simp [versions, push]

@[simp] theorem versions_settle (r : Register α) : r.settle.versions = r.versions := by
  obtain ⟨settled, pending⟩ := r
  cases pending with
  | nil => rfl
  | cons a rest => simp [settle, versions]

@[simp] theorem current_push (r : Register α) (a : α) : (r.push a).current = some a := by
  simp [current]

theorem mem_versions_of_recovered {r : Register α} {a : α} (h : r.recovered = some a) :
    a ∈ r.versions :=
  List.mem_append_left _ (List.mem_of_getLast? h)

/-- Nothing is recovered only if nothing has settled. -/
theorem recovered_eq_none {r : Register α} : r.recovered = none ↔ r.settled = [] :=
  List.getLast?_eq_none_iff

/-- What is no longer pending is recovered, or a later version is. -/
theorem recovered_mem_of_not_pending {r : Register α} {before after : List α} {a : α}
    (h : r.versions = before ++ a :: after) (ha : a ∉ r.pending) :
    ∃ b ∈ a :: after, r.recovered = some b := by
  rcases List.append_eq_append_iff.mp h with ⟨more, -, hpending⟩ | ⟨more, hsettled, hafter⟩
  · rw [hpending] at ha
    exact absurd (List.mem_append_right _ (List.mem_cons_self ..)) ha
  · have hne : more ≠ [] := by
      rintro rfl
      rw [List.nil_append] at hafter
      exact ha (hafter ▸ List.mem_cons_self ..)
    refine ⟨more.getLast hne, ?_, ?_⟩
    · rw [hafter]
      exact List.mem_append_left _ (List.getLast_mem hne)
    · rw [recovered, hsettled, List.getLast?_append_of_ne_nil _ hne,
        List.getLast?_eq_getLast_of_ne_nil hne]

/-- While it is pending, only an earlier version is recovered. -/
theorem recovered_mem_of_pending {r : Register α} {before after : List α} {a b : α}
    (h : r.versions = before ++ a :: after) (hnodup : r.versions.Nodup) (ha : a ∈ r.pending)
    (hb : r.recovered = some b) : b ∈ before := by
  have hmem : b ∈ r.settled := List.mem_of_getLast? hb
  rcases List.append_eq_append_iff.mp h with ⟨more, rfl, -⟩ | ⟨more, hsettled, hafter⟩
  · exact List.mem_append_left _ hmem
  · cases more with
    | nil => rwa [hsettled, List.append_nil] at hmem
    | cons a' more =>
      -- it would be both settled and pending
      obtain ⟨rfl, -⟩ := List.cons.inj hafter
      have hsettled' : a ∈ r.settled := hsettled ▸ List.mem_append_right _ (List.mem_cons_self ..)
      exact absurd rfl ((List.nodup_append.mp hnodup).2.2 a hsettled' a ha)

end Register

end KgaGateway
