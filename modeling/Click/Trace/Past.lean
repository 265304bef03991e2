/-
Traces and their past.

A trace is the list of what has happened so far, the latest last.  A statement
about an event may speak of the events before it.

* `since_snoc`, `always_snoc` — what one more event does to `Since` and `Always`, so
  that both are followed along a trace by induction.
-/
import Mathlib

namespace Trace

variable {E : Type}

/-- `P` held of some event and what came before it, and nothing after it is a
`stop`. -/
def Since (P : List E → E → Prop) (stop : E → Prop) (t : List E) : Prop :=
  ∃ pre e post, t = pre ++ e :: post ∧ P pre e ∧ ∀ e' ∈ post, ¬ stop e'

/-- `P` holds of each event and what came before it. -/
def Always (P : List E → E → Prop) (t : List E) : Prop :=
  ∀ pre e post, t = pre ++ e :: post → P pre e

/-- The last event is the one pointed at, or it is among those after it. -/
theorem snoc_eq_iff {t pre post : List E} {e e' : E} :
    t ++ [e] = pre ++ e' :: post ↔
      (post = [] ∧ t = pre ∧ e = e') ∨ ∃ front, post = front ++ [e] ∧ t = pre ++ e' :: front := by
  constructor
  · intro h
    rcases List.eq_nil_or_concat post with rfl | ⟨front, last, rfl⟩
    · obtain ⟨hpre, he⟩ := List.append_inj' h rfl
      exact .inl ⟨rfl, hpre, List.singleton_injective he⟩
    · rw [List.concat_eq_append, ← List.cons_append, ← List.append_assoc] at h
      obtain ⟨hpre, he⟩ := List.append_inj' h rfl
      obtain rfl := List.singleton_injective he
      exact .inr ⟨front, List.concat_eq_append, hpre⟩
  · rintro (⟨rfl, rfl, rfl⟩ | ⟨front, rfl, rfl⟩)
    · rfl
    · simp

section

variable {P : List E → E → Prop} {stop : E → Prop}

theorem not_since_nil : ¬ Since P stop [] := by
  rintro ⟨pre, e, post, h, -⟩
  exact absurd h (by simp)

theorem since_snoc {t : List E} {e : E} :
    Since P stop (t ++ [e]) ↔ P t e ∨ (¬ stop e ∧ Since P stop t) := by
  constructor
  · rintro ⟨pre, e', post, h, hP, hpost⟩
    rcases snoc_eq_iff.mp h with ⟨-, rfl, rfl⟩ | ⟨front, rfl, rfl⟩
    · exact .inl hP
    · exact .inr ⟨hpost e (by simp), pre, e', front, rfl, hP, fun x hx => hpost x (by simp [hx])⟩
  · rintro (hP | ⟨he, pre, e', post, rfl, hP, hpost⟩)
    · exact ⟨t, e, [], rfl, hP, by simp⟩
    · refine ⟨pre, e', post ++ [e], by simp, hP, ?_⟩
      simpa [or_imp, forall_and] using ⟨hpost, he⟩

theorem always_nil : Always P [] := by
  intro pre e post h
  exact absurd h (by simp)

theorem always_snoc {t : List E} {e : E} : Always P (t ++ [e]) ↔ Always P t ∧ P t e := by
  constructor
  · intro h
    exact ⟨fun pre e' post ht => h pre e' (post ++ [e]) (by simp [ht]), h t e [] rfl⟩
  · rintro ⟨h, hP⟩ pre e' post ht
    rcases snoc_eq_iff.mp ht with ⟨-, rfl, rfl⟩ | ⟨front, -, rfl⟩
    · exact hP
    · exact h pre e' front rfl

end

end Trace
