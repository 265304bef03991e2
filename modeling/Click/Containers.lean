/-
Containers of the generated classes.

A repeated field is a list; a map of messages is read by `at`, extended by
`operator[]`, and written to through pointers to its entries.  Entries of a map
stay where they are when others are inserted, so a pointer to an entry is the
entry's key.
-/
import Click.Message

open Proto

namespace Click.Protobuf

section Maps

variable {α : Type}

/-- `Map::at`. -/
def Map.at (m : Map α) (key : Str) : Except Fault α :=
  match m[key]? with
  | some x => .ok x
  | none => .error .keyNotFound

/-- `Map::operator[]`: a new entry starts as the default `init`. -/
def Map.subscript (m : Map α) (key : Str) (init : α) : Map α := m.insertIfNew key init

/-- The entry `key` is written to through a pointer. -/
def Map.update (m : Map α) (key : Str) (f : α → α) : Map α := m.modify key f

theorem Map.at_of_some {m : Map α} {key : Str} {x : α} (h : m[key]? = some x) :
    Map.at m key = .ok x := by
  rw [Map.at, h]

/-- What `Map::at` makes of an entry. -/
def found {β : Type} : Option β → Except Fault β
  | some x => .ok x
  | none => .error .keyNotFound

theorem Map.at_eq_found (m : Map α) (key : Str) : Map.at m key = found m[key]? := by
  rw [Map.at]
  cases m[key]? <;> rfl

theorem map_found {β : Type} (x : Option α) (f : α → β) : (found x).map f = found (x.map f) := by
  cases x <;> rfl

theorem bind_found {β : Type} (x : Option α) (f : α → Option β) :
    ((found x).bind fun a => found (f a)) = found (x.bind f) := by
  cases x <;> rfl

theorem Map.getElem?_insert (m : Map α) (key : Str) (x : α) (k : Str) :
    (m.insert key x)[k]? = if key = k then some x else m[k]? := by
  rw [Std.ExtTreeMap.getElem?_insert]
  simp only [Std.LawfulEqCmp.compare_eq_iff_eq]

@[simp] theorem Map.getElem?_subscript (m : Map α) (key : Str) (init : α) (k : Str) :
    (Map.subscript m key init)[k]? = if key = k then some (m[k]?.getD init) else m[k]? := by
  rw [Map.subscript, Std.ExtTreeMap.getElem?_insertIfNew]
  by_cases hk : key = k
  · subst hk
    rcases hm : m[key]? with _ | x
    · have hnot : key ∉ m := by
        rw [Std.ExtTreeMap.mem_iff_isSome_getElem?, hm]
        simp
      simp [hnot]
    · have hmem : key ∈ m := by
        rw [Std.ExtTreeMap.mem_iff_isSome_getElem?, hm]
        rfl
      simp [hmem]
  · have hcmp : ¬ compare key k = .eq := fun h => hk (Std.LawfulEqOrd.eq_of_compare h)
    simp [hk, hcmp]

@[simp] theorem Map.getElem?_update (m : Map α) (key : Str) (f : α → α) (k : Str) :
    (Map.update m key f)[k]? = if key = k then m[k]?.map f else m[k]? := by
  rw [Map.update, Std.ExtTreeMap.getElem?_modify]
  by_cases hk : key = k
  · subst hk
    simp
  · have hcmp : ¬ compare key k = .eq := fun h => hk (Std.LawfulEqOrd.eq_of_compare h)
    simp [hk, hcmp]

/-! ### Entries that are written one after the other -/

theorem Map.update_insert (m : Map α) (key : Str) (x : α) (f : α → α) :
    Map.update (m.insert key x) key f = m.insert key (f x) := by
  refine Std.ExtTreeMap.ext_getElem? fun k => ?_
  rw [Map.getElem?_update, Map.getElem?_insert, Map.getElem?_insert]
  by_cases hk : key = k <;> simp [hk]

theorem Map.subscript_insert (m : Map α) (key : Str) (x init : α) :
    Map.subscript (m.insert key x) key init = m.insert key x := by
  refine Std.ExtTreeMap.ext_getElem? fun k => ?_
  rw [Map.getElem?_subscript, Map.getElem?_insert]
  by_cases hk : key = k <;> simp [hk]

theorem Map.subscript_of_none {m : Map α} {key : Str} (h : m[key]? = none) (init : α) :
    Map.subscript m key init = m.insert key init := by
  refine Std.ExtTreeMap.ext_getElem? fun k => ?_
  rw [Map.getElem?_subscript, Map.getElem?_insert]
  by_cases hk : key = k
  · subst hk
    simp [h]
  · simp [hk]

/-- The keys of the entries of a map are different. -/
theorem Map.pairwise_toList (m : Map α) : m.toList.Pairwise fun e e' => e.1 ≠ e'.1 :=
  m.distinct_keys_toList.imp fun hne heq => hne (Std.LawfulEqCmp.compare_eq_iff_eq.mpr heq)

theorem Map.toList_ne_nil {m : Map α} {key : Str} (h : key ∈ m) : m.toList ≠ [] := by
  obtain ⟨x, hx⟩ := Option.isSome_iff_exists.mp (Std.ExtTreeMap.mem_iff_isSome_getElem?.mp h)
  exact List.ne_nil_of_mem (Std.ExtTreeMap.mem_toList_iff_getElem?_eq_some.mpr hx)

end Maps

section Lists

variable {α : Type}

/-- `RepeatedField::at` and `RepeatedPtrField::at`. -/
def RepeatedField.at (l : List α) (index : ℤ) : Except Fault α :=
  if index < 0 then .error .indexOutOfRange
  else match l[index.toNat]? with
    | some x => .ok x
    | none => .error .indexOutOfRange

/-- Follow the iterator `begin() + i`. -/
def RepeatedField.deref (l : List α) (i : ℕ) : Except Fault α :=
  match l[i]? with
  | some x => .ok x
  | none => .error .outOfBoundsRead

end Lists

end Click.Protobuf
