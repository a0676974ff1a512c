import Mathlib.Tactic

/-!
# Dictionaries in the order of insertion

A key that is assigned again keeps its place.
-/

structure Dict (κ α : Type*) where
  entries : List (κ × α)
  nodup : (entries.map Prod.fst).Nodup

namespace Dict

variable {κ α : Type*}

def empty : Dict κ α := ⟨[], List.nodup_nil⟩

def values (d : Dict κ α) : List α := d.entries.map Prod.snd

variable [DecidableEq κ]

def get? (d : Dict κ α) (k : κ) : Option α := (d.entries.find? (·.1 = k)).map Prod.snd

def assign (k : κ) (a : α) : List (κ × α) → List (κ × α)
  | [] => [(k, a)]
  | e :: l => if e.1 = k then (k, a) :: l else e :: assign k a l

theorem keys_assign (k : κ) (a : α) (l : List (κ × α)) :
    (assign k a l).map Prod.fst =
      if k ∈ l.map Prod.fst then l.map Prod.fst else l.map Prod.fst ++ [k] := by
  induction l with
  | nil => simp [assign]
  | cons e l ih =>
      unfold assign
      by_cases hk : e.1 = k
      · simp [hk]
      · have hne : ¬ k = e.1 := fun h ↦ hk h.symm
        simp only [if_neg hk, List.map_cons, ih, List.mem_cons, hne, false_or]
        split_ifs <;> rfl

theorem nodup_assign (k : κ) (a : α) {l : List (κ × α)} (h : (l.map Prod.fst).Nodup) :
    ((assign k a l).map Prod.fst).Nodup := by
  rw [keys_assign]
  split_ifs with hk
  · exact h
  · exact List.nodup_append.mpr ⟨h, List.nodup_singleton k, by
      rintro k' hk' k'' hk''
      rw [List.mem_singleton.mp hk'']
      exact fun heq ↦ hk (heq ▸ hk')⟩

/-- `d[k] = a`. -/
def set (d : Dict κ α) (k : κ) (a : α) : Dict κ α :=
  ⟨assign k a d.entries, nodup_assign k a d.nodup⟩

/-- `d.setdefault(k, a)`. -/
def setDefault (d : Dict κ α) (k : κ) (a : α) : Dict κ α :=
  if (d.get? k).isSome then d else d.set k a

theorem find?_assign_self (k : κ) (a : α) (l : List (κ × α)) :
    (assign k a l).find? (·.1 = k) = some (k, a) := by
  induction l with
  | nil => simp [assign]
  | cons e l ih =>
      unfold assign
      split_ifs with hk
      · simp
      · simpa [List.find?_cons, hk] using ih

theorem find?_assign_of_ne {k k' : κ} (h : k' ≠ k) (a : α) (l : List (κ × α)) :
    (assign k a l).find? (·.1 = k') = l.find? (·.1 = k') := by
  induction l with
  | nil => simp [assign, Ne.symm h]
  | cons e l ih =>
      unfold assign
      split_ifs with hk
      · simp [hk, Ne.symm h]
      · rw [List.find?_cons, List.find?_cons, ih]

@[simp] theorem get?_empty (k : κ) : (empty : Dict κ α).get? k = none := rfl

@[simp] theorem get?_set_self (d : Dict κ α) (k : κ) (a : α) : (d.set k a).get? k = some a := by
  rw [get?, set, find?_assign_self, Option.map_some]

theorem get?_set_of_ne (d : Dict κ α) {k k' : κ} (h : k' ≠ k) (a : α) :
    (d.set k a).get? k' = d.get? k' := by
  rw [get?, set, find?_assign_of_ne h, get?]

theorem get?_eq_some_iff (d : Dict κ α) {k : κ} {a : α} :
    d.get? k = some a ↔ (k, a) ∈ d.entries := by
  constructor
  · intro h
    obtain ⟨e, he, rfl⟩ := Option.map_eq_some_iff.mp h
    have hk : e.1 = k := by simpa using List.find?_some he
    rw [← hk]
    exact List.mem_of_find?_eq_some he
  · intro h
    cases hfind : d.entries.find? (·.1 = k) with
    | none =>
        have hne := List.find?_eq_none.mp hfind (k, a) h
        simp at hne
    | some e =>
        have hk : e.1 = k := by simpa using List.find?_some hfind
        have he := List.mem_of_find?_eq_some hfind
        have heq : e = (k, a) := List.inj_on_of_nodup_map d.nodup he h hk
        rw [get?, hfind, heq, Option.map_some]

theorem mem_keys_setDefault (d : Dict κ α) {k k' : κ} {a : α} :
    k' ∈ (d.setDefault k a).entries.map Prod.fst ↔ k' = k ∨ k' ∈ d.entries.map Prod.fst := by
  unfold setDefault
  split_ifs with hsome
  · obtain ⟨a', ha'⟩ := Option.isSome_iff_exists.mp hsome
    have hk : k ∈ d.entries.map Prod.fst := List.mem_map_of_mem ((get?_eq_some_iff d).mp ha')
    exact (or_iff_right_of_imp fun heq ↦ heq ▸ hk).symm
  · rw [set, keys_assign]
    split_ifs with hk
    · exact (or_iff_right_of_imp fun heq ↦ heq ▸ hk).symm
    · rw [List.mem_append, List.mem_singleton, or_comm]

theorem key_of_mem_setDefault {d : Dict κ α} {k : κ} {a : α} {e : κ × α}
    (h : e ∈ (d.setDefault k a).entries) : e.1 = k ∨ e.1 ∈ d.entries.map Prod.fst :=
  d.mem_keys_setDefault.mp (List.mem_map_of_mem h)

theorem mem_values_iff (d : Dict κ α) {a : α} : a ∈ d.values ↔ ∃ k, d.get? k = some a := by
  simp only [values, List.mem_map, get?_eq_some_iff]
  constructor
  · rintro ⟨⟨k, a'⟩, h, rfl⟩
    exact ⟨k, h⟩
  · rintro ⟨k, h⟩
    exact ⟨(k, a), h, rfl⟩

theorem get?_setDefault (d : Dict κ α) (k k' : κ) (a : α) :
    (d.setDefault k a).get? k' = (d.get? k').or (if k = k' then some a else none) := by
  unfold setDefault
  by_cases hk : k = k'
  · subst hk
    rw [if_pos rfl]
    cases hget : d.get? k with
    | none => rw [Option.isSome_none, if_neg Bool.false_ne_true, get?_set_self, Option.none_or]
    | some b => rw [Option.isSome_some, if_pos rfl, hget, Option.some_or]
  · rw [if_neg hk, Option.or_none]
    split_ifs
    · rfl
    · exact d.get?_set_of_ne (Ne.symm hk) a

/-- Of the elements with one key the first counts. -/
theorem get?_foldl_setDefault {β : Type*} (key : β → κ) (value : β → α) (l : List β)
    (d : Dict κ α) (k : κ) :
    (l.foldl (fun d b ↦ d.setDefault (key b) (value b)) d).get? k =
      (d.get? k).or ((l.find? (key · = k)).map value) := by
  induction l generalizing d with
  | nil => rw [List.foldl_nil, List.find?_nil, Option.map_none, Option.or_none]
  | cons b l ih =>
      rw [List.foldl_cons, ih, get?_setDefault, Option.or_assoc]
      by_cases hk : key b = k
      · rw [if_pos hk, List.find?_cons_of_pos (by simpa using hk), Option.some_or, Option.map_some]
      · rw [if_neg hk, List.find?_cons_of_neg (by simpa using hk), Option.none_or]

end Dict
