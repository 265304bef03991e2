/-
What chains can reach.

A chain moves an interface and a state on together.  Where each entry of a list can be
added by some calls, on the same interface before and after, all of them can be added one
after the other.

* `reaches_iff_chain` — what is reached from the first interface is what chains lead to;
* `reaches_foldl` — the entries of a list, added one after the other;
* `reaches_concat` — the elements of a list, appended one after the other.
-/
import Click.Fluent.Chain

namespace Fluent

variable {I C S ε : Type} {F : Interfaces I C} {exec : S → C → Except ε S}

/-- A call that the interface offers and that succeeds. -/
def Interfaces.Step (F : Interfaces I C) (exec : S → C → Except ε S) (x y : I × S) : Prop :=
  ∃ c, F.offers x.1 c = some y.1 ∧ exec x.2 c = .ok y.2

abbrev Interfaces.Reaches (F : Interfaces I C) (exec : S → C → Except ε S) : I × S → I × S → Prop :=
  Relation.ReflTransGen (F.Step exec)

theorem reaches_iff {x y : I × S} : F.Reaches exec x y ↔
    ∃ cs, F.follow x.1 cs = some y.1 ∧ run exec x.2 cs = .ok y.2 := by
  constructor
  · intro h
    induction h using Relation.ReflTransGen.head_induction_on with
    | refl => exact ⟨[], rfl, rfl⟩
    | @head x z hstep _ ih =>
      obtain ⟨c, hoffers, hexec⟩ := hstep
      obtain ⟨cs, hfollow, hrun⟩ := ih
      refine ⟨c :: cs, ?_, (run_cons_eq_ok exec).mpr ⟨z.2, hexec, hrun⟩⟩
      rw [Interfaces.follow, hoffers, Option.bind_some, hfollow]
  · rintro ⟨cs, hfollow, hrun⟩
    induction cs generalizing x with
    | nil =>
      obtain rfl : x = y := Prod.ext (Option.some.inj hfollow) (Except.ok.inj hrun)
      exact .refl
    | cons c cs ih =>
      obtain ⟨k, hk, hfollow⟩ := Option.bind_eq_some_iff.mp hfollow
      obtain ⟨u, hu, hrun⟩ := (run_cons_eq_ok exec).mp hrun
      exact .head ⟨c, hk, hu⟩ (ih (x := (k, u)) hfollow hrun)

theorem reaches_iff_chain {j : I} {s t : S} : F.Reaches exec (F.start, s) (j, t) ↔
    ∃ chain : Chain F, chain.last = j ∧ run exec s chain.calls = .ok t := by
  rw [reaches_iff]
  constructor
  · rintro ⟨cs, hfollow, hrun⟩
    exact ⟨⟨cs, j, hfollow⟩, rfl, hrun⟩
  · rintro ⟨chain, rfl, hrun⟩
    exact ⟨chain.calls, chain.admitted, hrun⟩

/-- **Entries are added one after the other.**  `Shows v s` says that the state `s` holds
the value `v`; an entry that fits is added by calls that come back to the interface `j`,
and entries that are kept apart do not get into each other's way. -/
theorem reaches_foldl {V E : Type} {j : I} (Shows : V → S → Prop) (put : V → E → V)
    (Fits : V → E → Prop) {Apart : E → E → Prop}
    (hput : ∀ v e s, Fits v e → Shows v s → ∃ t, Shows (put v e) t ∧ F.Reaches exec (j, s) (j, t))
    (hkeep : ∀ v e e', Fits v e' → Apart e e' → Fits (put v e) e') {es : List E}
    (hes : es.Pairwise Apart) {v : V} (hfits : ∀ e ∈ es, Fits v e) {s : S} (hs : Shows v s) :
    ∃ t, Shows (es.foldl put v) t ∧ F.Reaches exec (j, s) (j, t) := by
  induction es generalizing v s with
  | nil => exact ⟨s, hs, .refl⟩
  | cons e es ih =>
    rw [List.pairwise_cons] at hes
    rw [List.forall_mem_cons] at hfits
    obtain ⟨t, ht, hreach⟩ := hput v e s hfits.1 hs
    obtain ⟨u, hu, hreach'⟩ :=
      ih hes.2 (fun e' he' => hkeep v e e' (hfits.2 e' he') (hes.1 e' he')) ht
    exact ⟨u, hu, hreach.trans hreach'⟩

/-- The elements of a list are appended one after the other. -/
theorem reaches_concat {E : Type} {j : I} (Shows : List E → S → Prop) {Fits : E → Prop}
    (hput : ∀ l e s, Fits e → Shows l s → ∃ t, Shows (l ++ [e]) t ∧ F.Reaches exec (j, s) (j, t))
    {es : List E} (hfits : ∀ e ∈ es, Fits e) {s : S} (hs : Shows [] s) :
    ∃ t, Shows es t ∧ F.Reaches exec (j, s) (j, t) := by
  have hall := reaches_foldl Shows (fun l e => l ++ [e]) (fun _ e => Fits e) hput
    (fun _ _ _ he _ => he) (List.pairwise_of_forall fun _ _ => trivial) hfits hs
  rwa [List.foldl_append_eq_append, ← List.flatMap_def, List.flatMap_singleton',
    List.nil_append] at hall

end Fluent
