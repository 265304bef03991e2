/-
Turns.

The parts of a system take turns, one after the other, in the order of a schedule.
Where at each moment there is one thing that can be done, whoever is to do it, all
schedules lead through the same states; and if each part gets its turn again and
again, to the last of them.

* `Leads.eventually` — under a fair schedule the last state is reached, and kept;
* `Leads.prefix_after` — under any schedule, what only grows is always a front part
  of what it is in the last state.
-/
import Mathlib

namespace Turns

variable {P S A : Type} (step : P → S → S) (live : P → Prop)

/-- The state after the first turns of a schedule. -/
def after (schedule : ℕ → P) (s : S) : ℕ → S
  | 0 => s
  | n + 1 => step (schedule n) (after schedule s n)

/-- Each live turn is taken again and again. -/
def Fair (schedule : ℕ → P) : Prop := ∀ p, live p → ∀ n, ∃ m, n ≤ m ∧ schedule m = p

/-- There is one way to go from a state to a last one: a turn leaves each state on the
way as it is or leads to the next, some live turn does, and nothing changes the last
state. -/
inductive Leads : S → S → Prop
  | rest {s : S} : (∀ p, step p s = s) → Leads s s
  | turn {s s' last : S} (p : P) : live p → step p s = s' →
    (∀ q, step q s = s ∨ step q s = s') → Leads s' last → Leads s last

variable {step live} {schedule : ℕ → P} {s last : S}

theorem Leads.next (h : Leads step live s last) (p : P) : Leads step live (step p s) last := by
  cases h with
  | rest hstay =>
    rw [hstay]
    exact .rest hstay
  | turn q hq hstep hone hrest =>
    rcases hone p with heq | heq
    · rw [heq]
      exact .turn q hq hstep hone hrest
    · rw [heq]
      exact hrest

/-- Every schedule keeps to the way. -/
theorem Leads.after (h : Leads step live s last) (schedule : ℕ → P) (n : ℕ) :
    Leads step live (after step schedule s n) last := by
  induction n with
  | zero => exact h
  | succ n ih => exact ih.next (schedule n)

/-- A state is left when its turn comes, if not before. -/
theorem exists_after_eq {s' : S} {n m : ℕ} (hn : n ≤ m) (hs : after step schedule s n = last)
    (hm : step (schedule m) last = s') (hone : ∀ q, step q last = last ∨ step q last = s') :
    ∃ k, n ≤ k ∧ after step schedule s k = s' := by
  -- down from the turn that is known to come
  induction hn using Nat.decreasingInduction with
  | self => exact ⟨m + 1, Nat.le_succ m, by rw [Turns.after, hs, hm]⟩
  | of_succ k hk ih =>
    rcases hone (schedule k) with heq | heq
    · obtain ⟨l, hl, hafter⟩ := ih (by rw [Turns.after, hs, heq])
      exact ⟨l, by omega, hafter⟩
    · exact ⟨k + 1, Nat.le_succ k, by rw [Turns.after, hs, heq]⟩

theorem Leads.exists_after {s₀ : S} (h : Leads step live s last) (hfair : Fair live schedule)
    {n : ℕ} (hs : Turns.after step schedule s₀ n = s) :
    ∃ m, n ≤ m ∧ Turns.after step schedule s₀ m = last := by
  induction h generalizing n with
  | rest => exact ⟨n, le_rfl, hs⟩
  | turn p hp hstep hone _ ih =>
    obtain ⟨m, hm, hturn⟩ := hfair p hp n
    obtain ⟨k, hk, hafter⟩ := exists_after_eq hm hs (by rw [hturn, hstep]) hone
    obtain ⟨l, hl, hlast⟩ := ih hafter
    exact ⟨l, hk.trans hl, hlast⟩

/-- The last state is kept. -/
theorem Leads.last_stays (h : Leads step live s last) (p : P) : step p last = last := by
  induction h with
  | rest hstay => exact hstay p
  | turn _ _ _ _ _ ih => exact ih

/-- **A fair schedule leads to the last state**, which is then kept. -/
theorem Leads.eventually (h : Leads step live s last) (hfair : Fair live schedule) :
    ∃ n, ∀ m, n ≤ m → Turns.after step schedule s m = last := by
  obtain ⟨n, -, hn⟩ := h.exists_after hfair (n := 0) rfl
  refine ⟨n, fun m hm => ?_⟩
  induction m, hm using Nat.le_induction with
  | base => exact hn
  | succ m _ ih => rw [Turns.after, ih, h.last_stays]

/-- **What only grows** is, under any schedule, a front part of what it is in the
last state. -/
theorem Leads.prefix_after {f : S → List A} (hf : ∀ p s, f s <+: f (step p s))
    (h : Leads step live s last) (schedule : ℕ → P) (n : ℕ) :
    f (Turns.after step schedule s n) <+: f last := by
  have hrest := h.after schedule n
  generalize Turns.after step schedule s n = s' at hrest
  clear h
  induction hrest with
  | rest => exact List.prefix_rfl
  | turn p _ hstep _ _ ih =>
    rw [← hstep] at ih
    exact (hf p _).trans ih

end Turns
