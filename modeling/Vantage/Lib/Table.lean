import Mathlib.Tactic

/-!
# Tables of rows

Writing an object updates the rows that are found for it, or appends a new one.
When rows are found by a key, the table holds for each key the object that was
written last.
-/

namespace Vantage.Table

variable {ρ β : Type*}

def upsert (finds : β → ρ → Bool) (update : β → ρ → ρ) (new : β → ρ) (rows : List ρ) (b : β) :
    List ρ :=
  if rows.any (finds b) then rows.map fun row ↦ if finds b row then update b row else row
  else rows ++ [new b]

variable {finds : β → ρ → Bool} {update : β → ρ → ρ} {new : β → ρ} {rows : List ρ} {b : β}

/-- A write keeps a property of all rows exactly when the updates of the rows it finds do. -/
theorem forall_mem_upsert_iff {P : ρ → Prop} (hrows : ∀ row ∈ rows, P row) (hnew : P (new b)) :
    (∀ row ∈ upsert finds update new rows b, P row) ↔
      ∀ row ∈ rows, finds b row = true → P (update b row) := by
  unfold upsert
  split_ifs with hany
  · rw [List.forall_mem_map]
    refine forall₂_congr fun row hrow ↦ ?_
    split_ifs with hfound
    · simp [hfound]
    · simp [hfound, hrows row hrow]
  · refine ⟨fun _ row hrow hfound ↦ ?_, fun _ row hrow ↦ ?_⟩
    · exact absurd (List.any_eq_true.mpr ⟨row, hrow, hfound⟩) hany
    · rcases List.mem_append.mp hrow with hrow | hrow
      · exact hrows row hrow
      · rw [List.mem_singleton.mp hrow]
        exact hnew

/-! ## The last write -/

variable {κ : Type*} [DecidableEq κ] {key : ρ → κ} {keyOf : β → κ} {value : ρ → β} {bs : List β}
  {k : κ}

/-- Rows are found by their key, which an update leaves alone, and carry what was written. -/
structure Keyed (finds : β → ρ → Bool) (update : β → ρ → ρ) (new : β → ρ) (key : ρ → κ)
    (keyOf : β → κ) (value : ρ → β) : Prop where
  finds_iff : ∀ b row, finds b row = true ↔ key row = keyOf b
  key_update : ∀ b row, key (update b row) = key row
  key_new : ∀ b, key (new b) = keyOf b
  value_update : ∀ b row, value (update b row) = b
  value_new : ∀ b, value (new b) = b

def last (keyOf : β → κ) (bs : List β) (k : κ) : Option β := bs.reverse.find? fun b ↦ keyOf b = k

theorem last_concat (bs : List β) (b : β) (k : κ) :
    last keyOf (bs ++ [b]) k = if keyOf b = k then some b else last keyOf bs k := by
  rw [last, List.reverse_concat, List.find?_cons, last]
  by_cases hk : keyOf b = k <;> simp [hk]

/-- The rows with a key are one row with the last object that was written to it, or none. -/
def HoldsLast (key : ρ → κ) (keyOf : β → κ) (value : ρ → β) (rows : List ρ) (bs : List β) : Prop :=
  ∀ k, (rows.filter fun row ↦ key row = k).map value = (last keyOf bs k).toList

theorem key_written (h : Keyed finds update new key keyOf value) (b : β) (row : ρ) :
    key (if finds b row then update b row else row) = key row := by
  split_ifs
  · exact h.key_update b row
  · rfl

/-- The rows with other keys stay as they are. -/
theorem filter_upsert_of_ne (h : Keyed finds update new key keyOf value) (hb : keyOf b ≠ k) :
    ((upsert finds update new rows b).filter fun row ↦ key row = k) =
      rows.filter fun row ↦ key row = k := by
  unfold upsert
  split_ifs with hany
  · have hsame : ∀ row ∈ rows.filter fun row ↦ key row = k,
        (if finds b row then update b row else row) = row := by
      intro row hrow
      have hkey : key row = k := of_decide_eq_true (List.mem_filter.mp hrow).2
      refine if_neg fun hfound ↦ hb ?_
      rw [← hkey, (h.finds_iff b row).mp hfound]
    rw [List.filter_map]
    simp only [Function.comp_def, key_written h]
    rw [List.map_congr_left hsame, List.map_id']
  · have hkey : ¬ key (new b) = k := by rwa [h.key_new]
    simp [List.filter_append, hkey]

/-- One row with the key, or none, becomes one row with the object. -/
theorem map_filter_upsert_self (h : Keyed finds update new key keyOf value)
    (hrows : (rows.filter fun row ↦ key row = keyOf b).length ≤ 1) :
    ((upsert finds update new rows b).filter fun row ↦ key row = keyOf b).map value = [b] := by
  unfold upsert
  split_ifs with hany
  · obtain ⟨row, hrow, hfound⟩ := List.any_eq_true.mp hany
    have hmem : row ∈ rows.filter fun row ↦ key row = keyOf b :=
      List.mem_filter.mpr ⟨hrow, decide_eq_true ((h.finds_iff b row).mp hfound)⟩
    obtain ⟨row', hsingle⟩ := List.length_eq_one_iff.mp
      (le_antisymm hrows (List.length_pos_of_mem hmem))
    rw [hsingle, List.mem_singleton] at hmem
    rw [List.filter_map]
    simp only [Function.comp_def, key_written h]
    rw [hsingle, ← hmem, List.map_singleton, List.map_singleton, if_pos hfound, h.value_update]
  · have hnone : (rows.filter fun row ↦ key row = keyOf b) = [] := by
      rw [List.filter_eq_nil_iff]
      intro row hrow hkey
      exact hany (List.any_eq_true.mpr
        ⟨row, hrow, (h.finds_iff b row).mpr (of_decide_eq_true hkey)⟩)
    rw [List.filter_append, hnone]
    simp [h.key_new, h.value_new]

theorem HoldsLast.upsert (h : Keyed finds update new key keyOf value)
    (hrows : HoldsLast key keyOf value rows bs) (b : β) :
    HoldsLast key keyOf value (upsert finds update new rows b) (bs ++ [b]) := by
  intro k
  rw [last_concat]
  by_cases hb : keyOf b = k
  · subst hb
    have hlength := congrArg List.length (hrows (keyOf b))
    rw [List.length_map] at hlength
    rw [if_pos rfl, Option.toList_some]
    exact map_filter_upsert_self h (hlength.trans_le Option.length_toList_le)
  · rw [if_neg hb, filter_upsert_of_ne h hb, hrows k]

/-- After some writes the table holds the last of them for each key. -/
theorem holdsLast_foldl (h : Keyed finds update new key keyOf value) (bs : List β) :
    HoldsLast key keyOf value (bs.foldl (upsert finds update new) []) bs := by
  induction bs using List.reverseRecOn with
  | nil => exact fun k ↦ rfl
  | append_singleton bs b ih =>
      rw [List.foldl_append]
      exact ih.upsert h b

end Vantage.Table
