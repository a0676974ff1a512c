import Mathlib.Tactic

/-!
# Breadth-first search to a depth

Nodes wait in a queue with their depths. A round drops the first of them, or
visits it and appends the nodes that it links to. As the queue is ordered by
depth, a node is visited first at the least depth at which it can be reached.
-/

namespace BreadthFirst

variable {α : Type*} {Link : α → α → Prop} {Root : α → Prop} {maxDepth : ℤ} {n : ℕ} {a : α}

/-- A chain of `n` links leads from a root to the node. -/
inductive Chain (Link : α → α → Prop) (Root : α → Prop) : ℕ → α → Prop
  | root {a : α} (h : Root a) : Chain Link Root 0 a
  | link {n : ℕ} {a b : α} (h : Chain Link Root n a) (hlink : Link a b) :
      Chain Link Root (n + 1) b

/-- The nodes that were visited and those that wait, with their depths. -/
structure Search (α : Type*) where
  visited : List (α × ℕ)
  queue : List (α × ℕ)

def Search.nodes (s : Search α) : List α := s.visited.map Prod.fst

inductive Round (Link : α → α → Prop) (maxDepth : ℤ) : Search α → Search α → Prop
  | skip {a : α} {d : ℕ} {visited queue : List (α × ℕ)} (hseen : a ∈ visited.map Prod.fst) :
      Round Link maxDepth ⟨visited, (a, d) :: queue⟩ ⟨visited, queue⟩
  | visit {a : α} {d : ℕ} {visited queue : List (α × ℕ)} {next : List α}
      (hnew : a ∉ visited.map Prod.fst)
      (hnext : ∀ b, b ∈ next ↔ (d : ℤ) < maxDepth ∧ Link a b) :
      Round Link maxDepth ⟨visited, (a, d) :: queue⟩
        ⟨(a, d) :: visited, queue ++ next.map fun b ↦ (b, d + 1)⟩

/-- The node was visited or waits at the depth or above. -/
def Noted (s : Search α) (n : ℕ) (a : α) : Prop :=
  ∃ d ≤ n, (a, d) ∈ s.visited ∨ (a, d) ∈ s.queue

structure Invariant (Link : α → α → Prop) (Root : α → Prop) (maxDepth : ℤ) (s : Search α) :
    Prop where
  distinct : s.nodes.Nodup
  chained : ∀ a d, (a, d) ∈ s.visited ∨ (a, d) ∈ s.queue →
    Chain Link Root d a ∧ (d = 0 ∨ (d : ℤ) ≤ maxDepth)
  ordered : s.queue.Pairwise fun e e' ↦ e.2 ≤ e'.2 ∧ e'.2 ≤ e.2 + 1
  behind : ∀ e ∈ s.visited, ∀ e' ∈ s.queue, e.2 ≤ e'.2
  roots : ∀ a, Root a → Noted s 0 a
  closed : ∀ a d, (a, d) ∈ s.visited → (d : ℤ) < maxDepth → ∀ b, Link a b → Noted s (d + 1) b

/-- The search from a list of roots. -/
def start (roots : List α) : Search α := ⟨[], roots.map fun a ↦ (a, 0)⟩

theorem invariant_start (roots : List α) :
    Invariant Link (· ∈ roots) maxDepth (start roots) where
  distinct := List.nodup_nil
  chained := by
    rintro a d (hvisited | hqueue)
    · exact absurd hvisited List.not_mem_nil
    · obtain ⟨root, hroot, heq⟩ := List.mem_map.mp hqueue
      obtain ⟨rfl, rfl⟩ := Prod.mk.inj heq
      exact ⟨.root hroot, Or.inl rfl⟩
  ordered := List.pairwise_map.mpr (List.pairwise_of_forall fun _ _ ↦ ⟨le_rfl, Nat.le_succ _⟩)
  behind := fun e he ↦ absurd he List.not_mem_nil
  roots := fun a ha ↦ ⟨0, le_rfl, Or.inr (List.mem_map.mpr ⟨a, ha, rfl⟩)⟩
  closed := fun a d hvisited ↦ absurd hvisited List.not_mem_nil

/-- A node that is dropped was visited at its depth or above. -/
theorem noted_of_round {s s' : Search α} (h : Round Link maxDepth s s')
    (hbehind : ∀ e ∈ s.visited, ∀ e' ∈ s.queue, e.2 ≤ e'.2) (hnoted : Noted s n a) :
    Noted s' n a := by
  obtain ⟨d, hd, hmem⟩ := hnoted
  cases h with
  | @skip b k visited queue hseen =>
      rcases hmem with hvisited | hqueue
      · exact ⟨d, hd, Or.inl hvisited⟩
      · rcases List.mem_cons.mp hqueue with heq | hqueue
        · obtain ⟨rfl, rfl⟩ := Prod.mk.inj heq
          obtain ⟨⟨a, e⟩, he, rfl⟩ := List.mem_map.mp hseen
          exact ⟨e, (hbehind _ he _ List.mem_cons_self).trans hd, Or.inl he⟩
        · exact ⟨d, hd, Or.inr hqueue⟩
  | visit hnew hnext =>
      rcases hmem with hvisited | hqueue
      · exact ⟨d, hd, Or.inl (List.mem_cons_of_mem _ hvisited)⟩
      · rcases List.mem_cons.mp hqueue with heq | hqueue
        · exact ⟨d, hd, Or.inl (heq ▸ List.mem_cons_self)⟩
        · exact ⟨d, hd, Or.inr (List.mem_append_left _ hqueue)⟩

/-- What a round adds to the queue is one deeper than all that was visited. -/
theorem invariant_round {s s' : Search α} (h : Round Link maxDepth s s')
    (hinv : Invariant Link Root maxDepth s) : Invariant Link Root maxDepth s' := by
  have hnoted : ∀ {n a}, Noted s n a → Noted s' n a := fun hn ↦ noted_of_round h hinv.behind hn
  cases h with
  | skip hseen =>
      refine ⟨hinv.distinct, ?_, (List.pairwise_cons.mp hinv.ordered).2, ?_, ?_, ?_⟩
      · exact fun a d hmem ↦ hinv.chained a d (hmem.imp_right (List.mem_cons_of_mem _))
      · exact fun e he e' he' ↦ hinv.behind e he e' (List.mem_cons_of_mem _ he')
      · exact fun a ha ↦ hnoted (hinv.roots a ha)
      · exact fun a d hmem hdepth b hlink ↦ hnoted (hinv.closed a d hmem hdepth b hlink)
  | @visit a d visited queue next hnew hnext =>
      obtain ⟨hchain, hbound⟩ := hinv.chained a d (Or.inr List.mem_cons_self)
      obtain ⟨hfirst, hrest⟩ := List.pairwise_cons.mp hinv.ordered
      refine ⟨List.nodup_cons.mpr ⟨hnew, hinv.distinct⟩, ?_, ?_, ?_, ?_, ?_⟩
      · rintro b e (hvisited | hqueue)
        · rcases List.mem_cons.mp hvisited with heq | hvisited
          · obtain ⟨rfl, rfl⟩ := Prod.mk.inj heq
            exact ⟨hchain, hbound⟩
          · exact hinv.chained b e (Or.inl hvisited)
        · rcases List.mem_append.mp hqueue with hqueue | hadded
          · exact hinv.chained b e (Or.inr (List.mem_cons_of_mem _ hqueue))
          · obtain ⟨b', hb', heq⟩ := List.mem_map.mp hadded
            obtain ⟨rfl, rfl⟩ := Prod.mk.inj heq
            obtain ⟨hdepth, hlink⟩ := (hnext b').mp hb'
            exact ⟨.link hchain hlink, Or.inr (by push_cast; omega)⟩
      · refine List.pairwise_append.mpr ⟨hrest, ?_, ?_⟩
        · exact List.pairwise_map.mpr
            (List.pairwise_of_forall fun _ _ ↦ ⟨le_rfl, Nat.le_succ _⟩)
        · intro e he e' he'
          obtain ⟨b, -, rfl⟩ := List.mem_map.mp he'
          obtain ⟨hlow, hhigh⟩ := hfirst e he
          exact ⟨hhigh, Nat.succ_le_succ hlow⟩
      · intro e he e' he'
        have hed : e.2 ≤ d := by
          rcases List.mem_cons.mp he with rfl | he
          · exact le_rfl
          · exact hinv.behind e he (a, d) List.mem_cons_self
        rcases List.mem_append.mp he' with he' | hadded
        · exact hed.trans (hfirst e' he').1
        · obtain ⟨b, -, rfl⟩ := List.mem_map.mp hadded
          exact hed.trans (Nat.le_succ d)
      · exact fun b hb ↦ hnoted (hinv.roots b hb)
      · intro b e hvisited hdepth c hlink
        rcases List.mem_cons.mp hvisited with heq | hvisited
        · obtain ⟨rfl, rfl⟩ := Prod.mk.inj heq
          have hc : c ∈ next := (hnext c).mpr ⟨hdepth, hlink⟩
          exact ⟨e + 1, le_rfl, Or.inr (List.mem_append_right _ (List.mem_map.mpr ⟨c, hc, rfl⟩))⟩
        · exact hnoted (hinv.closed b e hvisited hdepth c hlink)

theorem invariant_run {s s' : Search α} (h : Relation.ReflTransGen (Round Link maxDepth) s s')
    (hinv : Invariant Link Root maxDepth s) : Invariant Link Root maxDepth s' := by
  induction h with
  | refl => exact hinv
  | tail _ hround ih => exact invariant_round hround ih

/-- A search that is over has visited each node in reach, at the end of its shortest chain or
before. -/
theorem visited_of_chain {s : Search α} (hinv : Invariant Link Root maxDepth s)
    (hover : s.queue = []) (h : Chain Link Root n a) (hn : n = 0 ∨ (n : ℤ) ≤ maxDepth) :
    ∃ d ≤ n, (a, d) ∈ s.visited := by
  have hvisited : ∀ {k b}, Noted s k b → ∃ d ≤ k, (b, d) ∈ s.visited := by
    rintro k b ⟨d, hd, hmem⟩
    refine ⟨d, hd, hmem.resolve_right ?_⟩
    rw [hover]
    exact List.not_mem_nil
  induction h with
  | root hroot => exact hvisited (hinv.roots _ hroot)
  | @link k b c hchain hlink ih =>
      have hk : (k : ℤ) < maxDepth := by
        rcases hn with hn | hn
        · exact absurd hn (Nat.succ_ne_zero k)
        · push_cast at hn
          omega
      obtain ⟨d, hd, hb⟩ := ih (Or.inr hk.le)
      have hdepth : (d : ℤ) < maxDepth := lt_of_le_of_lt (by exact_mod_cast hd) hk
      obtain ⟨e, he, hc⟩ := hvisited (hinv.closed b d hb hdepth c hlink)
      exact ⟨e, he.trans (Nat.succ_le_succ hd), hc⟩

/-- A search that is over has visited the roots and what is not farther than the depth. -/
theorem mem_nodes_iff {s : Search α} (hinv : Invariant Link Root maxDepth s)
    (hover : s.queue = []) :
    a ∈ s.nodes ↔ Root a ∨ ∃ n : ℕ, IsLeast {k | Chain Link Root k a} n ∧ (n : ℤ) ≤ maxDepth := by
  constructor
  · intro ha
    obtain ⟨⟨a, d⟩, hmem, rfl⟩ := List.mem_map.mp ha
    obtain ⟨hchain, hbound⟩ := hinv.chained a d (Or.inl hmem)
    rcases hbound with rfl | hbound
    · cases hchain with
      | root hroot => exact Or.inl hroot
    · classical
      have hsome : ∃ k, Chain Link Root k a := ⟨d, hchain⟩
      refine Or.inr ⟨Nat.find hsome, ⟨Nat.find_spec hsome, fun k hk ↦ Nat.find_min' hsome hk⟩, ?_⟩
      have hleast : Nat.find hsome ≤ d := Nat.find_min' hsome hchain
      exact (Int.ofNat_le.mpr hleast).trans hbound
  · intro h
    obtain ⟨d, -, hmem⟩ : ∃ d, True ∧ (a, d) ∈ s.visited := by
      rcases h with hroot | ⟨n, hleast, hbound⟩
      · obtain ⟨d, -, hmem⟩ := visited_of_chain hinv hover (.root hroot) (Or.inl rfl)
        exact ⟨d, trivial, hmem⟩
      · obtain ⟨d, -, hmem⟩ := visited_of_chain hinv hover hleast.1 (Or.inr hbound)
        exact ⟨d, trivial, hmem⟩
    exact List.mem_map.mpr ⟨(a, d), hmem, rfl⟩

end BreadthFirst
