import Mathlib.Data.List.Sort
import Mathlib.Data.List.TakeWhile
import Mathlib.Tactic

/-!
# Places in a stable ranking

A list is sorted by a rank, the highest first, and equals keep their order. The
place of an element is the number of those that stand ahead of it.
-/

namespace Ranking

variable {α κ : Type*} [LinearOrder κ] {rank : α → κ} {a b : α} {l : List α} {i k : ℕ}

def ranked (rank : α → κ) (l : List α) : List α := l.insertionSort fun a b ↦ rank b ≤ rank a

/-- Those in front of it that rank as high, and those behind it that rank higher. -/
def place (rank : α → κ) (l : List α) (i : ℕ) : ℕ :=
  match l[i]? with
  | none => 0
  | some a => (l.take i).countP (rank a ≤ rank ·) + (l.drop (i + 1)).countP (rank a < rank ·)

theorem place_zero : place rank (a :: l) 0 = l.countP (rank a < rank ·) := by
  simp [place]

theorem place_succ (h : l[i]? = some b) :
    place rank (a :: l) (i + 1) = place rank l i + if rank b ≤ rank a then 1 else 0 := by
  simp only [place, List.getElem?_cons_succ, h, List.take_succ_cons, List.drop_succ_cons,
    List.countP_cons, decide_eq_true_eq]
  omega

/-- The new element stands behind those that rank higher. -/
theorem ranked_cons (rank : α → κ) (a : α) (l : List α) : ranked rank (a :: l) =
    (ranked rank l).takeWhile (rank a < rank ·) ++ a :: (ranked rank l).dropWhile (rank a < rank ·) := by
  have hnot : ∀ b, (decide ¬ rank b ≤ rank a) = decide (rank a < rank b) := fun b ↦ by
    simp only [not_le]
  unfold ranked
  rw [List.insertionSort_cons, List.orderedInsert_eq_take_drop]
  simp only [hnot]

theorem pairwise_ranked (rank : α → κ) (l : List α) :
    (ranked rank l).Pairwise fun a b ↦ rank b ≤ rank a := by
  have htotal : Std.Total fun a b : α ↦ rank b ≤ rank a := ⟨fun a b ↦ le_total _ _⟩
  have htrans : IsTrans α fun a b ↦ rank b ≤ rank a := ⟨fun a b c h h' ↦ h'.trans h⟩
  exact List.pairwise_insertionSort _ _

/-- Behind those that rank higher than a bound, nothing does. -/
theorem rank_le_of_mem_dropWhile (h : b ∈ (ranked rank l).dropWhile (rank a < rank ·)) :
    rank b ≤ rank a := by
  have hpairwise := (pairwise_ranked rank l).sublist
    (List.dropWhile_suffix fun b ↦ decide (rank a < rank b)).sublist
  cases hdrop : (ranked rank l).dropWhile (rank a < rank ·) with
  | nil => simp [hdrop] at h
  | cons c rest =>
      have hne : (ranked rank l).dropWhile (rank a < rank ·) ≠ [] := by simp [hdrop]
      have hhead := List.head_dropWhile_not (fun b ↦ decide (rank a < rank b)) hne
      simp only [hdrop, List.head_cons, decide_eq_false_iff_not, not_lt] at hhead
      rw [hdrop] at h hpairwise
      rcases List.mem_cons.mp h with rfl | h
      · exact hhead
      · exact ((List.pairwise_cons.mp hpairwise).1 b h).trans hhead

theorem lt_of_mem_takeWhile (h : b ∈ (ranked rank l).takeWhile (rank a < rank ·)) :
    rank a < rank b :=
  of_decide_eq_true (List.mem_takeWhile_imp (p := fun b ↦ decide (rank a < rank b)) h)

theorem length_takeWhile (rank : α → κ) (a : α) (l : List α) :
    ((ranked rank l).takeWhile (rank a < rank ·)).length = l.countP (rank a < rank ·) := by
  have hperm : (ranked rank l).Perm l := List.perm_insertionSort _ _
  have hsplit := congrArg (List.countP (rank a < rank ·))
    (List.takeWhile_append_dropWhile (p := (rank a < rank ·)) (l := ranked rank l))
  have hfirst : ((ranked rank l).takeWhile (rank a < rank ·)).countP (rank a < rank ·) =
      ((ranked rank l).takeWhile (rank a < rank ·)).length :=
    List.countP_eq_length.mpr fun b hb ↦ decide_eq_true (lt_of_mem_takeWhile hb)
  have hlast : ((ranked rank l).dropWhile (rank a < rank ·)).countP (rank a < rank ·) = 0 :=
    List.countP_eq_zero.mpr fun b hb ↦ by simpa using rank_le_of_mem_dropWhile hb
  rw [List.countP_append, hfirst, hlast, hperm.countP_eq, Nat.add_zero] at hsplit
  exact hsplit

/-- The elements that rank higher come first. -/
theorem rank_le_iff_countP_le (h : (ranked rank l)[k]? = some b) (a : α) :
    rank b ≤ rank a ↔ l.countP (rank a < rank ·) ≤ k := by
  rw [← length_takeWhile]
  rw [← List.takeWhile_append_dropWhile (p := (rank a < rank ·)) (l := ranked rank l)] at h
  constructor
  · intro hrank
    by_contra hlt
    rw [List.getElem?_append_left (not_le.mp hlt)] at h
    exact absurd hrank (not_le.mpr (lt_of_mem_takeWhile (List.mem_of_getElem? h)))
  · intro hle
    rw [List.getElem?_append_right hle] at h
    exact rank_le_of_mem_dropWhile (List.mem_of_getElem? h)

/-- An inserted element moves those behind it by one. -/
theorem getElem?_ranked_cons (h : (ranked rank l)[k]? = some b) :
    (ranked rank (a :: l))[k + if rank b ≤ rank a then 1 else 0]? = some b := by
  have hrank := rank_le_iff_countP_le h a
  rw [← length_takeWhile] at hrank
  rw [← List.takeWhile_append_dropWhile (p := (rank a < rank ·)) (l := ranked rank l)] at h
  rw [ranked_cons]
  split_ifs with hle
  · have hbehind := hrank.mp hle
    rw [List.getElem?_append_right hbehind] at h
    rw [List.getElem?_append_right (Nat.le_succ_of_le hbehind), Nat.succ_sub hbehind,
      List.getElem?_cons_succ, h]
  · have hfront := not_le.mp (hrank.not.mp hle)
    rw [List.getElem?_append_left hfront] at h
    rw [Nat.add_zero, List.getElem?_append_left hfront, h]

/-- An element is found at its place. -/
theorem getElem?_place (h : l[i]? = some a) : (ranked rank l)[place rank l i]? = some a := by
  induction l generalizing i with
  | nil => simp at h
  | cons b l ih =>
      cases i with
      | zero =>
          obtain rfl : b = a := by simpa using h
          rw [place_zero, ranked_cons, ← length_takeWhile, List.getElem?_append_right le_rfl]
          simp
      | succ i =>
          rw [List.getElem?_cons_succ] at h
          rw [place_succ h]
          exact getElem?_ranked_cons (ih h)

/-- Every place is taken. -/
theorem exists_place (h : k < l.length) : ∃ i < l.length, place rank l i = k := by
  induction l generalizing k with
  | nil => simp at h
  | cons a l ih =>
      have hcount : l.countP (rank a < rank ·) ≤ l.length := List.countP_le_length
      have hlift : ∀ k' < l.length, ∃ i < (a :: l).length, place rank (a :: l) i =
          k' + if l.countP (rank a < rank ·) ≤ k' then 1 else 0 := by
        intro k' hk'
        obtain ⟨i, hi, hplace⟩ := ih hk'
        have hfound : (ranked rank l)[k']? = some l[i] := hplace ▸ getElem?_place (by simp [hi])
        refine ⟨i + 1, Nat.succ_lt_succ hi, ?_⟩
        rw [place_succ (List.getElem?_eq_getElem hi), hplace]
        simp only [rank_le_iff_countP_le hfound]
      rcases lt_trichotomy k (l.countP (rank a < rank ·)) with hlt | rfl | hgt
      · obtain ⟨i, hi, hplace⟩ := hlift k (hlt.trans_le hcount)
        rw [if_neg (not_le.mpr hlt)] at hplace
        exact ⟨i, hi, hplace⟩
      · exact ⟨0, Nat.succ_pos _, place_zero⟩
      · obtain ⟨i, hi, hplace⟩ := hlift (k - 1) (by simp only [List.length_cons] at h; omega)
        rw [if_pos (Nat.le_sub_one_of_lt hgt)] at hplace
        exact ⟨i, hi, by omega⟩

theorem mem_take_ranked_iff : b ∈ (ranked rank l).take k ↔
    ∃ i, l[i]? = some b ∧ place rank l i < k := by
  constructor
  · intro h
    obtain ⟨j, hj, hb⟩ := List.mem_take_iff_getElem.mp h
    have hlength : (ranked rank l).length = l.length := List.length_insertionSort _ _
    obtain ⟨i, hi, hplace⟩ : ∃ i < l.length, place rank l i = j := exists_place (by omega)
    have hfound : (ranked rank l)[place rank l i]? = some l[i] :=
      getElem?_place (List.getElem?_eq_getElem hi)
    rw [hplace, List.getElem?_eq_getElem (by omega), hb, Option.some_inj] at hfound
    exact ⟨i, by rw [List.getElem?_eq_getElem hi, hfound], by omega⟩
  · rintro ⟨i, hi, hlt⟩
    have hfound : (ranked rank l)[place rank l i]? = some b := getElem?_place hi
    exact List.mem_of_getElem? ((List.getElem?_take_of_lt hlt).trans hfound)

/-- The place depends on the ranks only. -/
theorem place_eq_place_map (rank : α → κ) (l : List α) (i : ℕ) :
    place rank l i = place id (l.map rank) i := by
  unfold place
  rw [List.getElem?_map, ← List.map_take, ← List.map_drop]
  cases l[i]? with
  | none => rfl
  | some a => simp only [Option.map_some, List.countP_map, Function.comp_def, id_eq]

theorem place_congr {β : Type*} {rank' : β → κ} {l' : List β} (h : l.map rank = l'.map rank')
    (i : ℕ) : place rank l i = place rank' l' i := by
  rw [place_eq_place_map, h, ← place_eq_place_map]

end Ranking
