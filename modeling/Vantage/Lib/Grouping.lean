import Mathlib.Data.List.Perm.Basic
import Mathlib.Data.List.Sort
import Mathlib.Tactic

/-!
# Grouping a list by a key

The groups stand in the order in which their keys first occur, and a group
keeps the order of the list. A group has a first element by construction.
-/

namespace Grouping

variable {α β κ : Type*}

structure Group (κ α : Type*) where
  key : κ
  head : α
  tail : List α

namespace Group

def members (g : Group κ α) : List α := g.head :: g.tail

theorem head_mem (g : Group κ α) : g.head ∈ g.members := List.mem_cons_self

end Group

variable [DecidableEq κ]

/-- Append an element to the group of its key. -/
def push (k : κ) (a : α) : List (Group κ α) → List (Group κ α)
  | [] => [⟨k, a, []⟩]
  | g :: gs => if g.key = k then ⟨k, g.head, g.tail ++ [a]⟩ :: gs else g :: push k a gs

def groupBy (key : α → κ) (l : List α) : List (Group κ α) :=
  l.foldl (fun gs a ↦ push (key a) a gs) []

/-- The groups hold exactly the elements of the list, each under its own key. -/
structure Partitions (key : α → κ) (l : List α) (gs : List (Group κ α)) : Prop where
  nodup : (gs.map Group.key).Nodup
  members : ∀ g ∈ gs, g.members = l.filter (key · = g.key)
  complete : ∀ a ∈ l, ∃ g ∈ gs, g.key = key a

section Push

variable {k : κ} {a : α} {gs : List (Group κ α)}

theorem mem_keys_push {j : κ} :
    j ∈ (push k a gs).map Group.key ↔ j ∈ gs.map Group.key ∨ j = k := by
  induction gs with
  | nil => simp [push]
  | cons g gs ih =>
      unfold push
      split_ifs with hkey
      · rw [List.map_cons, List.map_cons, List.mem_cons, List.mem_cons, hkey]
        tauto
      · rw [List.map_cons, List.map_cons, List.mem_cons, List.mem_cons, ih, or_assoc]

theorem nodup_push (h : (gs.map Group.key).Nodup) : ((push k a gs).map Group.key).Nodup := by
  induction gs with
  | nil => simp [push]
  | cons g gs ih =>
      rw [List.map_cons, List.nodup_cons] at h
      unfold push
      split_ifs with hkey
      · rw [List.map_cons, List.nodup_cons, ← hkey]
        exact h
      · rw [List.map_cons, List.nodup_cons, mem_keys_push, not_or]
        exact ⟨⟨h.1, hkey⟩, ih h.2⟩

/-- A group after the push is an old one, extended when it has the key, or is new. -/
theorem mem_push {g : Group κ α} (hnodup : (gs.map Group.key).Nodup) (hg : g ∈ push k a gs) :
    (g ∈ gs ∧ g.key ≠ k) ∨
      (∃ g' ∈ gs, g'.key = k ∧ g = ⟨k, g'.head, g'.tail ++ [a]⟩) ∨
      (g = ⟨k, a, []⟩ ∧ k ∉ gs.map Group.key) := by
  induction gs with
  | nil =>
      rw [push, List.mem_singleton] at hg
      exact Or.inr (Or.inr ⟨hg, List.not_mem_nil⟩)
  | cons g₀ gs ih =>
      rw [List.map_cons, List.nodup_cons] at hnodup
      unfold push at hg
      split_ifs at hg with hkey
      · rcases List.mem_cons.mp hg with rfl | hg
        · exact Or.inr (Or.inl ⟨g₀, List.mem_cons_self, hkey, rfl⟩)
        · refine Or.inl ⟨List.mem_cons_of_mem _ hg, fun hk ↦ hnodup.1 ?_⟩
          rw [hkey, ← hk]
          exact List.mem_map_of_mem hg
      · rcases List.mem_cons.mp hg with rfl | hg
        · exact Or.inl ⟨List.mem_cons_self, hkey⟩
        · rcases ih hnodup.2 hg with hold | ⟨g', hg', hrest⟩ | ⟨hnew, hfresh⟩
          · exact Or.inl ⟨List.mem_cons_of_mem _ hold.1, hold.2⟩
          · exact Or.inr (Or.inl ⟨g', List.mem_cons_of_mem _ hg', hrest⟩)
          · refine Or.inr (Or.inr ⟨hnew, ?_⟩)
            rw [List.map_cons, List.mem_cons, not_or]
            exact ⟨fun hk ↦ hkey hk.symm, hfresh⟩

theorem Partitions.push {key : α → κ} {l : List α} (h : Partitions key l gs) (a : α) :
    Partitions key (l ++ [a]) (Grouping.push (key a) a gs) where
  nodup := nodup_push h.nodup
  members := by
    intro g hg
    rw [List.filter_append]
    rcases mem_push h.nodup hg with ⟨hold, hkey⟩ | ⟨g', hg', hkey, rfl⟩ | ⟨rfl, hfresh⟩
    · have hskip : [a].filter (key · = g.key) = [] := List.filter_cons_of_neg (by simpa using hkey.symm)
      rw [h.members g hold, hskip, List.append_nil]
    · have hmembers := h.members g' hg'
      rw [hkey] at hmembers
      rw [← hmembers]
      simp [Group.members]
    · have hnone : l.filter (key · = key a) = [] := by
        apply List.filter_eq_nil_iff.mpr
        intro b hb hkey
        obtain ⟨g, hg, hgkey⟩ := h.complete b hb
        apply hfresh
        rw [← of_decide_eq_true hkey, ← hgkey]
        exact List.mem_map_of_mem hg
      simp [Group.members, hnone]
  complete := by
    intro b hb
    have hmem : key b ∈ (Grouping.push (key a) a gs).map Group.key := by
      rw [mem_keys_push]
      rcases List.mem_append.mp hb with hb | hb
      · obtain ⟨g, hg, hkey⟩ := h.complete b hb
        exact Or.inl (hkey ▸ List.mem_map_of_mem hg)
      · exact Or.inr (congrArg key (List.mem_singleton.mp hb))
    exact List.mem_map.mp hmem

theorem flatMap_push_perm :
    ((push k a gs).flatMap Group.members).Perm (a :: gs.flatMap Group.members) := by
  induction gs with
  | nil => simp [push, Group.members]
  | cons g gs ih =>
      unfold push
      split_ifs with hkey
      · simp only [List.flatMap_cons, Group.members, List.cons_append, List.append_assoc]
        exact (List.perm_middle.cons _).trans (List.Perm.swap _ _ _)
      · simp only [List.flatMap_cons]
        exact (ih.append_left _).trans List.perm_middle

theorem push_of_notMem (h : k ∉ gs.map Group.key) : push k a gs = gs ++ [⟨k, a, []⟩] := by
  induction gs with
  | nil => rfl
  | cons g gs ih =>
      rw [List.map_cons, List.mem_cons, not_or] at h
      rw [push, if_neg fun heq ↦ h.1 heq.symm, ih h.2, List.cons_append]

end Push

/-- Together the groups hold every element as often as the list does. -/
theorem flatMap_groupBy_perm (key : α → κ) (l : List α) :
    ((groupBy key l).flatMap Group.members).Perm l := by
  unfold groupBy
  induction l using List.reverseRecOn with
  | nil => exact List.Perm.nil
  | append_singleton l a ih =>
      rw [List.foldl_append]
      refine flatMap_push_perm.trans ((ih.cons a).trans ?_)
      exact (List.perm_append_singleton a l).symm

theorem partitions_groupBy (key : α → κ) (l : List α) : Partitions key l (groupBy key l) := by
  unfold groupBy
  induction l using List.reverseRecOn with
  | nil => exact ⟨List.nodup_nil, by simp, by simp⟩
  | append_singleton l a ih =>
      rw [List.foldl_append]
      exact ih.push a

/-- Elements with different keys form groups of their own. -/
theorem groupBy_of_nodup {key : α → κ} {l : List α} (h : (l.map key).Nodup) :
    groupBy key l = l.map fun a ↦ ⟨key a, a, []⟩ := by
  unfold groupBy
  induction l using List.reverseRecOn with
  | nil => rfl
  | append_singleton l a ih =>
      rw [List.map_append, List.map_singleton, ← List.concat_eq_append, List.nodup_concat] at h
      rw [List.foldl_append, ih h.2, List.foldl_cons, List.foldl_nil, List.map_append,
        push_of_notMem (by simpa [Function.comp_def] using h.1), List.map_singleton]

namespace Partitions

variable {key : α → κ} {l l' : List α} {gs gs' : List (Group κ α)} {g g' : Group κ α} {a : α}

theorem mem_iff (h : Partitions key l gs) (hg : g ∈ gs) :
    a ∈ g.members ↔ a ∈ l ∧ key a = g.key := by
  rw [h.members g hg, List.mem_filter, decide_eq_true_eq]

theorem key_of_mem (h : Partitions key l gs) (hg : g ∈ gs) (ha : a ∈ g.members) :
    key a = g.key := ((h.mem_iff hg).mp ha).2

theorem mem_keys_iff (h : Partitions key l gs) {k : κ} :
    k ∈ gs.map Group.key ↔ k ∈ l.map key := by
  constructor
  · intro hk
    obtain ⟨g, hg, rfl⟩ := List.mem_map.mp hk
    have hhead := (h.mem_iff hg).mp g.head_mem
    exact hhead.2 ▸ List.mem_map_of_mem hhead.1
  · intro hk
    obtain ⟨a, ha, rfl⟩ := List.mem_map.mp hk
    obtain ⟨g, hg, hkey⟩ := h.complete a ha
    exact hkey ▸ List.mem_map_of_mem hg

/-- A group is determined by its key. -/
theorem eq_of_key (h : Partitions key l gs) (hg : g ∈ gs) (hg' : g' ∈ gs)
    (hkey : g.key = g'.key) : g = g' := List.inj_on_of_nodup_map h.nodup hg hg' hkey

/-- Groupings of two orders of one list have the same groups up to order. -/
theorem members_perm (h : Partitions key l gs) (h' : Partitions key l' gs') (hl : l.Perm l')
    (hg : g ∈ gs) (hg' : g' ∈ gs') (hkey : g.key = g'.key) : g.members.Perm g'.members := by
  rw [h.members g hg, h'.members g' hg', hkey]
  exact hl.filter _

end Partitions

/-! ## The first of the largest -/

section FirstMax

variable [LinearOrder β]

/-- `max(a :: l, key=rank)`. -/
def firstMax (rank : α → β) (a : α) (l : List α) : α :=
  l.foldl (fun best b ↦ if rank best < rank b then b else best) a

theorem firstMax_cons (rank : α → β) (a b : α) (l : List α) :
    firstMax rank a (b :: l) = firstMax rank (if rank a < rank b then b else a) l := rfl

theorem firstMax_mem (rank : α → β) (a : α) (l : List α) : firstMax rank a l ∈ a :: l := by
  induction l generalizing a with
  | nil => exact List.mem_cons_self
  | cons b l ih =>
      rw [firstMax_cons]
      have hmem := ih (if rank a < rank b then b else a)
      split_ifs at hmem ⊢ <;> simp only [List.mem_cons] at hmem ⊢ <;> tauto

theorem le_firstMax (rank : α → β) (a : α) (l : List α) :
    ∀ b ∈ a :: l, rank b ≤ rank (firstMax rank a l) := by
  induction l generalizing a with
  | nil =>
      intro b hb
      rw [List.mem_singleton.mp hb]
      exact le_rfl
  | cons c l ih =>
      intro b hb
      rw [firstMax_cons]
      have hstep := ih (if rank a < rank c then c else a)
      have hbest := hstep _ List.mem_cons_self
      rcases List.mem_cons.mp hb with rfl | hb
      · refine le_trans ?_ hbest
        split_ifs with hlt
        · exact hlt.le
        · exact le_rfl
      · rcases List.mem_cons.mp hb with rfl | hb
        · refine le_trans ?_ hbest
          split_ifs with hlt
          · exact le_rfl
          · exact not_lt.mp hlt
        · exact hstep b (List.mem_cons_of_mem _ hb)

/-- The largest rank does not depend on the order. -/
theorem rank_firstMax_eq (rank : α → β) {a a' : α} {l l' : List α}
    (h : ∀ b, b ∈ a :: l ↔ b ∈ a' :: l') :
    rank (firstMax rank a l) = rank (firstMax rank a' l') := by
  apply le_antisymm
  · exact le_firstMax rank a' l' _ ((h _).mp (firstMax_mem rank a l))
  · exact le_firstMax rank a l _ ((h _).mpr (firstMax_mem rank a' l'))

/-- The least of some elements does not depend on their order. -/
theorem foldl_min_congr {a a' : β} {l l' : List β} (h : ∀ b, b ∈ a :: l ↔ b ∈ a' :: l') :
    l.foldl min a = l'.foldl min a' := by
  have hmin : (a :: l).min? = some (l'.foldl min a') := by
    have hleast := List.min?_eq_some_iff.mp (@List.min?_cons' _ a' _ l')
    apply List.min?_eq_some_iff.mpr
    exact ⟨(h _).mpr hleast.1, fun b hb ↦ hleast.2 b ((h b).mp hb)⟩
  rw [List.min?_cons'] at hmin
  exact Option.some.inj hmin

theorem foldl_max_congr {a a' : β} {l l' : List β} (h : ∀ b, b ∈ a :: l ↔ b ∈ a' :: l') :
    l.foldl max a = l'.foldl max a' := by
  have hmax : (a :: l).max? = some (l'.foldl max a') := by
    have hgreatest := List.max?_eq_some_iff.mp (@List.max?_cons' _ a' _ l')
    apply List.max?_eq_some_iff.mpr
    exact ⟨(h _).mpr hgreatest.1, fun b hb ↦ hgreatest.2 b ((h b).mp hb)⟩
  rw [List.max?_cons'] at hmax
  exact Option.some.inj hmax

end FirstMax

/-! ## Distinct elements -/

section Distinct

variable [DecidableEq β]

/-- The first element of every key. -/
def distinctBy (key : α → β) (l : List α) : List α :=
  l.foldl (fun acc a ↦ if key a ∈ acc.map key then acc else acc ++ [a]) []

theorem mem_map_distinctBy {key : α → β} {l : List α} {b : β} :
    b ∈ (distinctBy key l).map key ↔ b ∈ l.map key := by
  unfold distinctBy
  induction l using List.reverseRecOn with
  | nil => rfl
  | append_singleton l a ih =>
      rw [List.foldl_append, List.map_append, List.mem_append, ← ih, List.foldl_cons, List.foldl_nil]
      split_ifs with hseen
      · constructor
        · exact Or.inl
        · rintro (hb | hb)
          · exact hb
          · rw [List.map_singleton, List.mem_singleton] at hb
            rw [hb]
            exact hseen
      · rw [List.map_append, List.mem_append]

theorem mem_of_mem_distinctBy {key : α → β} {l : List α} {a : α} (h : a ∈ distinctBy key l) :
    a ∈ l := by
  unfold distinctBy at h
  induction l using List.reverseRecOn with
  | nil => exact h
  | append_singleton l b ih =>
      rw [List.foldl_append, List.foldl_cons, List.foldl_nil] at h
      split_ifs at h with hseen
      · exact List.mem_append_left _ (ih h)
      · exact (List.mem_append.mp h).elim (fun h ↦ List.mem_append_left _ (ih h))
          (List.mem_append_right _)

theorem nodup_map_distinctBy (key : α → β) (l : List α) : ((distinctBy key l).map key).Nodup := by
  unfold distinctBy
  induction l using List.reverseRecOn with
  | nil => exact List.nodup_nil
  | append_singleton l a ih =>
      rw [List.foldl_append, List.foldl_cons, List.foldl_nil]
      split_ifs with hseen
      · exact ih
      · rw [List.map_append, List.map_singleton]
        exact List.nodup_append_comm.mp (List.nodup_cons.mpr ⟨hseen, ih⟩)

end Distinct

/-! ## Sorted sets -/

section SortedSet

variable [LinearOrder α]

/-- `sorted` on the set of the elements of a list. -/
def sortedSet (l : List α) : List α := l.dedup.insertionSort (· ≤ ·)

@[simp] theorem mem_sortedSet {l : List α} {a : α} : a ∈ sortedSet l ↔ a ∈ l := by
  rw [sortedSet, List.mem_insertionSort, List.mem_dedup]

theorem nodup_sortedSet (l : List α) : (sortedSet l).Nodup :=
  (List.perm_insertionSort _ _).nodup_iff.mpr (List.nodup_dedup l)

theorem sortedSet_congr {l l' : List α} (h : ∀ a, a ∈ l ↔ a ∈ l') :
    sortedSet l = sortedSet l' := by
  have hperm : l.dedup.Perm l'.dedup :=
    (List.perm_ext_iff_of_nodup l.nodup_dedup l'.nodup_dedup).mpr fun a ↦ by
      rw [List.mem_dedup, List.mem_dedup, h]
  apply List.Perm.eq_of_pairwise' (r := (· ≤ ·))
  · exact List.pairwise_insertionSort (· ≤ ·) _
  · exact List.pairwise_insertionSort (· ≤ ·) _
  · exact ((List.perm_insertionSort _ _).trans hperm).trans (List.perm_insertionSort _ _).symm

theorem two_le_length_sortedSet_iff {l : List α} :
    2 ≤ (sortedSet l).length ↔ ∃ a ∈ l, ∃ b ∈ l, a ≠ b := by
  have hnodup := nodup_sortedSet l
  constructor
  · intro h
    match hset : sortedSet l with
    | [] => simp [hset] at h
    | [a] => simp [hset] at h
    | a :: b :: rest =>
        have hmem : ∀ c ∈ a :: b :: rest, c ∈ l := fun c hc ↦ mem_sortedSet.mp (hset ▸ hc)
        rw [hset] at hnodup
        refine ⟨a, hmem a (by simp), b, hmem b (by simp), ?_⟩
        rintro rfl
        simp at hnodup
  · rintro ⟨a, ha, b, hb, hne⟩
    match hset : sortedSet l with
    | [] => exact absurd (mem_sortedSet.mpr ha) (by simp [hset])
    | [c] =>
        have heq : ∀ x ∈ l, x = c := fun x hx ↦ by simpa [hset] using mem_sortedSet.mpr hx
        exact absurd ((heq a ha).trans (heq b hb).symm) hne
    | a :: b :: rest => simp

end SortedSet

end Grouping
