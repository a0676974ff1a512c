import Mathlib.Tactic

/-!
# Taking joined texts apart

Fields that are joined by a separator are determined by the joined text when
it is known how often each of them contains the separator, and fields that are
only concatenated when their lengths are known.
-/

namespace Joined

variable {α : Type*} [DecidableEq α] {c : α}

/-- The separator in question is found behind as many others. -/
theorem append_cons_inj {a b x y : List α} (h : a ++ c :: x = b ++ c :: y)
    (hcount : a.count c = b.count c) : a = b ∧ x = y := by
  induction a generalizing b with
  | nil =>
      cases b with
      | nil => exact ⟨rfl, (List.cons.inj h).2⟩
      | cons d b =>
          obtain ⟨rfl, -⟩ := List.cons.inj h
          simp at hcount
  | cons d a ih =>
      cases b with
      | nil =>
          obtain ⟨rfl, -⟩ := List.cons.inj h
          simp at hcount
      | cons e b =>
          obtain ⟨rfl, htail⟩ : d = e ∧ a ++ c :: x = b ++ c :: y := List.cons.inj h
          rw [List.count_cons, List.count_cons, Nat.add_right_cancel_iff] at hcount
          obtain ⟨hab, hxy⟩ := ih htail hcount
          exact ⟨congrArg _ hab, hxy⟩

/-- Fields that contain the separator equally often are determined by the joined text. -/
theorem intercalate_inj {xs ys : List (List α)}
    (hcount : xs.map (List.count c) = ys.map (List.count c))
    (h : [c].intercalate xs = [c].intercalate ys) : xs = ys := by
  induction xs generalizing ys with
  | nil => exact (List.map_eq_nil_iff.mp hcount.symm).symm
  | cons x xs ih =>
      cases ys with
      | nil => simp at hcount
      | cons y ys =>
          obtain ⟨hfirst, hrest⟩ := List.cons.inj hcount
          cases xs with
          | nil =>
              obtain rfl := List.map_eq_nil_iff.mp hrest.symm
              simpa using h
          | cons x' xs =>
              cases ys with
              | nil => simp at hrest
              | cons y' ys =>
                  rw [List.intercalate_cons_cons, List.intercalate_cons_cons, List.append_assoc,
                    List.append_assoc] at h
                  obtain ⟨hhead, htail⟩ := append_cons_inj h hfirst
                  rw [hhead, ih hrest htail]

end Joined
