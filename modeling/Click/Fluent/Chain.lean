/-
Fluent interfaces.

An object is used through a family of interfaces: every call is a method of the
interface that the call before it returned.  The interfaces are a finite
automaton over calls, run alongside the object itself, and what the object needs
from its callers has to follow from the automaton.

* `eachCall_of_invariant` — what follows, for every offered call, from a relation
  between interface and state that the calls keep, holds of each call of a chain;
* `run_of_eachCall` — a chain succeeds if what its calls rely on holds of each.
-/
import Mathlib

namespace Fluent

/-- The interfaces of an object: the first one, the interface each call on an
interface returns (`none` if it has no such method), and the interfaces that can
finish the chain. -/
structure Interfaces (I C : Type) where
  start : I
  offers : I → C → Option I
  finishes : I → Bool

section Interfaces

variable {I C : Type} (F : Interfaces I C)

/-- The interface a chain of calls ends on. -/
def Interfaces.follow : I → List C → Option I
  | i, [] => some i
  | i, c :: cs => (F.offers i c).bind fun j => Interfaces.follow j cs

theorem Interfaces.follow_append (i : I) (cs ds : List C) :
    F.follow i (cs ++ ds) = (F.follow i cs).bind fun j => F.follow j ds := by
  induction cs generalizing i with
  | nil => rfl
  | cons c cs ih =>
    rw [List.cons_append, follow, follow, Option.bind_assoc]
    congr 1
    funext j
    exact ih j

/-- A chain of calls that type checks, from the first interface on. -/
structure Chain where
  calls : List C
  last : I
  admitted : F.follow F.start calls = some last

end Interfaces

section Results

variable {ε α β : Type} {x : Except ε α} {b : β}

theorem bind_eq_ok {f : α → Except ε β} :
    x.bind f = .ok b ↔ ∃ a, x = .ok a ∧ f a = .ok b := by
  rcases x with e | a <;> simp [Except.bind]

theorem map_eq_ok {f : α → β} : x.map f = .ok b ↔ ∃ a, x = .ok a ∧ f a = b := by
  rcases x with e | a <;> simp [Except.map]

theorem toOption_eq_some {a : α} : x.toOption = some a ↔ x = .ok a := by
  rcases x with e | a <;> simp [Except.toOption]

end Results

section Run

variable {I C S ε : Type} {F : Interfaces I C} (exec : S → C → Except ε S)

/-- Calls one after the other, up to the first that fails. -/
def run (s : S) (cs : List C) : Except ε S := cs.foldlM exec s

theorem run_cons (s : S) (c : C) (cs : List C) :
    run exec s (c :: cs) = (exec s c).bind fun s' => run exec s' cs := List.foldlM_cons

theorem run_cons_eq_ok {s s' : S} {c : C} {cs : List C} :
    run exec s (c :: cs) = .ok s' ↔ ∃ t, exec s c = .ok t ∧ run exec t cs = .ok s' := by
  rw [run_cons, bind_eq_ok]

theorem run_append (s : S) (cs ds : List C) :
    run exec s (cs ++ ds) = (run exec s cs).bind fun s' => run exec s' ds := List.foldlM_append

theorem run_append_eq_ok {s s' : S} {cs ds : List C} :
    run exec s (cs ++ ds) = .ok s' ↔ ∃ t, run exec s cs = .ok t ∧ run exec t ds = .ok s' := by
  rw [run_append, bind_eq_ok]

/-- Calls that are themselves short chains. -/
theorem run_flatMap {D : Type} (calls : D → List C) (s : S) (ds : List D) :
    run exec s (ds.flatMap calls) = run (fun s d => run exec s (calls d)) s ds := by
  induction ds generalizing s with
  | nil => rfl
  | cons d ds ih =>
    rw [List.flatMap_cons, run_append, run_cons]
    rcases run exec s (calls d) with f | t
    · rfl
    · exact ih t

/-- Calls that cannot fail make a chain that cannot. -/
theorem run_of_total (hex : ∀ s c, ∃ s', exec s c = .ok s') (s : S) (cs : List C) :
    ∃ s', run exec s cs = .ok s' := by
  induction cs generalizing s with
  | nil => exact ⟨s, rfl⟩
  | cons c cs ih =>
    obtain ⟨s', hs⟩ := hex s c
    rw [run_cons, hs]
    exact ih s'

/-- `Q` holds of each call in the state it is made in. -/
def EachCall (Q : S → C → Prop) : S → List C → Prop
  | _, [] => True
  | s, c :: cs => Q s c ∧ ∀ s', exec s c = .ok s' → EachCall Q s' cs

variable {exec}

/-- What each of the calls keeps if it succeeds, the chain keeps. -/
theorem run_invariant_of_mem {P : S → Prop} {cs : List C}
    (h : ∀ {s c s'}, c ∈ cs → P s → exec s c = .ok s' → P s') {s s' : S} (hs : P s)
    (hrun : run exec s cs = .ok s') : P s' := by
  induction cs generalizing s with
  | nil =>
    obtain rfl := Except.ok.inj hrun
    exact hs
  | cons c cs ih =>
    obtain ⟨t, hc, hrun⟩ := (run_cons_eq_ok exec).mp hrun
    exact ih (fun hmem => h (List.mem_cons_of_mem c hmem)) (h List.mem_cons_self hs hc) hrun

/-- What every call that succeeds keeps, a chain keeps. -/
theorem run_invariant {P : S → Prop} (h : ∀ {s c s'}, P s → exec s c = .ok s' → P s')
    {s s' : S} {cs : List C} (hs : P s) (hrun : run exec s cs = .ok s') : P s' :=
  run_invariant_of_mem (fun _ => h) hs hrun

/-- A part of the state that each call either assigns or leaves alone holds what was
assigned last. -/
theorem get_run {A : Type} (get : S → A) (assigned : C → Option A)
    (h : ∀ {s c s'}, exec s c = .ok s' → get s' = (assigned c).getD (get s)) {s s' : S}
    {cs : List C} (hrun : run exec s cs = .ok s') :
    get s' = (cs.filterMap assigned).getLast?.getD (get s) := by
  induction cs generalizing s with
  | nil =>
    obtain rfl := Except.ok.inj hrun
    rfl
  | cons c cs ih =>
    obtain ⟨t, hc, hrun⟩ := (run_cons_eq_ok exec).mp hrun
    rw [ih hrun, h hc]
    rcases ha : assigned c with _ | a
    · rw [List.filterMap_cons_none ha, Option.getD_none]
    · rw [List.filterMap_cons_some ha, List.getLast?_cons, Option.getD_some, Option.getD_some]

theorem eachCall_of_invariant {Q : S → C → Prop} {P : I → S → Prop}
    (hstep : ∀ {i j s c}, P i s → F.offers i c = some j →
      Q s c ∧ ∀ s', exec s c = .ok s' → P j s')
    {i j : I} {s : S} {cs : List C} (hi : P i s) (hf : F.follow i cs = some j) :
    EachCall exec Q s cs := by
  -- along the chain, with the interface and the state moving on together
  induction cs generalizing i s with
  | nil => trivial
  | cons c cs ih =>
    obtain ⟨k, hk, hf⟩ := Option.bind_eq_some_iff.mp hf
    obtain ⟨hq, hnext⟩ := hstep hi hk
    exact ⟨hq, fun s' hs => ih (hnext s' hs) hf⟩

/-- If the calls succeed where `Q` holds, so does the chain. -/
theorem run_of_eachCall {Q : S → C → Prop} (hq : ∀ {s c}, Q s c → ∃ s', exec s c = .ok s')
    {s : S} {cs : List C} (h : EachCall exec Q s cs) : ∃ s', run exec s cs = .ok s' := by
  induction cs generalizing s with
  | nil => exact ⟨s, rfl⟩
  | cons c cs ih =>
    obtain ⟨s', hs⟩ := hq h.1
    rw [run_cons, hs]
    exact ih (h.2 s' hs)

end Run

end Fluent
