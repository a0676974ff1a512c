import Mathlib.Order.BoundedOrder.Lattice
import Mathlib.Tactic

/-!
# Expressions in AND and OR

Expression trees are evaluated in a lattice, AND as the join and OR as the
meet. A chain is an expression without parentheses, in which AND binds
tighter than OR. Erasing the parentheses of a tree never raises its value,
and keeps it when no OR stands below an AND.
-/

namespace AndOr

variable {α β L : Type*}

inductive Op where
  | and
  | or
deriving DecidableEq, Repr

inductive Expr (α : Type*) where
  | atom (a : α)
  | node (op : Op) (l r : Expr α)

def Expr.atoms : Expr α → List α
  | .atom a => [a]
  | .node _ l r => l.atoms ++ r.atoms

/-- A first operand, and the further operands with the operator before each. -/
structure Chain (α : Type*) where
  head : α
  tail : List (Op × α)

namespace Chain

def single (a : α) : Chain α := ⟨a, []⟩

def append (op : Op) (c d : Chain α) : Chain α := ⟨c.head, c.tail ++ (op, d.head) :: d.tail⟩

def map (f : α → β) (c : Chain α) : Chain β := ⟨f c.head, c.tail.map fun x ↦ (x.1, f x.2)⟩

def atoms (c : Chain α) : List α := c.head :: c.tail.map Prod.snd

def ops (c : Chain α) : List Op := c.tail.map Prod.fst

@[simp] theorem map_append (f : α → β) (op : Op) (c d : Chain α) :
    (append op c d).map f = append op (c.map f) (d.map f) := by
  simp [append, map]

@[simp] theorem atoms_append (op : Op) (c d : Chain α) :
    (append op c d).atoms = c.atoms ++ d.atoms := by
  simp [append, atoms]

@[simp] theorem ops_append (op : Op) (c d : Chain α) :
    (append op c d).ops = c.ops ++ op :: d.ops := by
  simp [append, ops]

/-! ## The first and the last operand -/

def mapHead (f : α → α) (c : Chain α) : Chain α := ⟨f c.head, c.tail⟩

def lastFrom (a : α) : List (Op × α) → α
  | [] => a
  | (_, b) :: rest => lastFrom b rest

def last (c : Chain α) : α := lastFrom c.head c.tail

def mapLastFrom (f : α → α) (a : α) : List (Op × α) → Chain α
  | [] => ⟨f a, []⟩
  | (o, b) :: rest => ⟨a, (o, (mapLastFrom f b rest).head) :: (mapLastFrom f b rest).tail⟩

def mapLast (f : α → α) (c : Chain α) : Chain α := mapLastFrom f c.head c.tail

theorem map_mapHead (f : α → α) (g : α → β) (h : ∀ a, g (f a) = g a) (c : Chain α) :
    (c.mapHead f).map g = c.map g := by
  simp [mapHead, map, h]

theorem map_mapLast (f : α → α) (g : α → β) (h : ∀ a, g (f a) = g a) (c : Chain α) :
    (c.mapLast f).map g = c.map g := by
  obtain ⟨a, tail⟩ := c
  simp only [mapLast]
  induction tail generalizing a with
  | nil => simp [mapLastFrom, map, h]
  | cons x rest ih =>
      obtain ⟨o, b⟩ := x
      have hrest := ih b
      simp only [map, Chain.mk.injEq] at hrest
      simp [mapLastFrom, map, hrest.1, hrest.2]

/-! ## Cutting a chain at an operator -/

def cutFrom (op : Op) (a : α) : List (Op × α) → List (Chain α)
  | [] => [⟨a, []⟩]
  | (o, b) :: rest =>
      match cutFrom op b rest with
      | [] => []
      | c :: cs => if o = op then ⟨a, []⟩ :: c :: cs else ⟨a, (o, c.head) :: c.tail⟩ :: cs

/-- The pieces of a chain between the occurrences of an operator. -/
def cutAt (op : Op) (c : Chain α) : List (Chain α) := cutFrom op c.head c.tail

theorem exists_cutFrom (op : Op) (a : α) (tail : List (Op × α)) :
    ∃ c cs, cutFrom op a tail = c :: cs ∧ c.head = a := by
  induction tail generalizing a with
  | nil => exact ⟨_, _, rfl, rfl⟩
  | cons x rest ih =>
      obtain ⟨c, cs, hcut, -⟩ := ih x.2
      unfold cutFrom
      rw [hcut]
      by_cases hop : x.1 = op
      · exact ⟨⟨a, []⟩, c :: cs, by simp [hop], rfl⟩
      · exact ⟨⟨a, (x.1, c.head) :: c.tail⟩, cs, by simp [hop], rfl⟩

/-- Splitting at the first operator of the chain. -/
theorem cutFrom_cons (op o : Op) (a b : α) (rest : List (Op × α)) :
    ∃ c cs, cutFrom op b rest = c :: cs ∧ c.head = b ∧ cutFrom op a ((o, b) :: rest) =
      if o = op then ⟨a, []⟩ :: c :: cs else ⟨a, (o, b) :: c.tail⟩ :: cs := by
  obtain ⟨c, cs, hcut, rfl⟩ := exists_cutFrom op b rest
  exact ⟨c, cs, hcut, rfl, by simp [cutFrom, hcut]⟩

theorem cutAt_eq_self {op : Op} {c : Chain α} (h : op ∉ c.ops) : cutAt op c = [c] := by
  obtain ⟨a, tail⟩ := c
  simp only [cutAt, ops] at h ⊢
  induction tail generalizing a with
  | nil => rfl
  | cons x rest ih =>
      obtain ⟨o, b⟩ := x
      simp only [List.map_cons, List.mem_cons, not_or] at h
      have hne : o ≠ op := fun ho ↦ h.1 ho.symm
      simp [cutFrom, ih b h.2, hne]

theorem exists_cutAt_eq_cons_cons {op : Op} {c : Chain α} (h : op ∈ c.ops) :
    ∃ d e ds, cutAt op c = d :: e :: ds := by
  obtain ⟨a, tail⟩ := c
  simp only [cutAt, ops] at h ⊢
  induction tail generalizing a with
  | nil => simp at h
  | cons x rest ih =>
      obtain ⟨o, b⟩ := x
      obtain ⟨c, cs, hcut, -, heq⟩ := cutFrom_cons op o a b rest
      rw [heq]
      split_ifs with ho
      · exact ⟨_, _, _, rfl⟩
      · simp only [List.map_cons, List.mem_cons] at h
        obtain ⟨d, e, ds, hrest⟩ := ih b (h.resolve_left fun hop ↦ ho hop.symm)
        obtain ⟨-, rfl⟩ := List.cons.inj (hcut.symm.trans hrest)
        exact ⟨_, _, _, rfl⟩

theorem ops_of_mem_cutAt {op : Op} {c d : Chain α} (h : d ∈ cutAt op c) : op ∉ d.ops := by
  obtain ⟨a, tail⟩ := c
  simp only [cutAt] at h
  induction tail generalizing a d with
  | nil =>
      obtain rfl := List.mem_singleton.mp h
      simp [ops]
  | cons x rest ih =>
      obtain ⟨o, b⟩ := x
      obtain ⟨c, cs, hcut, -, heq⟩ := cutFrom_cons op o a b rest
      rw [heq] at h
      split_ifs at h with ho
      · rcases List.mem_cons.mp h with rfl | h
        · simp [ops]
        · exact ih b (hcut ▸ h)
      · rcases List.mem_cons.mp h with rfl | h
        · have hc := ih b (d := c) (by simp [hcut])
          simp only [ops, List.map_cons, List.mem_cons, not_or] at hc ⊢
          exact ⟨fun hop ↦ ho hop.symm, hc⟩
        · exact ih b (by simp [hcut, h])

/-- The operators of the pieces, with the ones that were cut at, are those of the chain. -/
theorem mem_ops_of_mem_cutAt {op o : Op} {c d : Chain α} (ho : o ∈ d.ops) (h : d ∈ cutAt op c) :
    o ∈ c.ops := by
  obtain ⟨a, tail⟩ := c
  simp only [cutAt] at h
  induction tail generalizing a d with
  | nil =>
      obtain rfl := List.mem_singleton.mp h
      exact ho
  | cons x rest ih =>
      obtain ⟨o', b⟩ := x
      obtain ⟨c, cs, hcut, -, heq⟩ := cutFrom_cons op o' a b rest
      rw [heq] at h
      have htail : ∀ d ∈ c :: cs, o ∈ d.ops → o ∈ ops ⟨a, (o', b) :: rest⟩ := by
        intro d hd hod
        exact List.mem_cons_of_mem _ (ih (d := d) hod b (by rw [hcut]; exact hd))
      split_ifs at h with hop
      · rcases List.mem_cons.mp h with rfl | h
        · simp [ops] at ho
        · exact htail d h ho
      · rcases List.mem_cons.mp h with rfl | h
        · rcases List.mem_cons.mp ho with rfl | ho
          · simp [ops]
          · exact htail c (by simp) ho
        · exact htail d (by simp [h]) ho

theorem flatMap_atoms_cutAt (op : Op) (c : Chain α) : (cutAt op c).flatMap atoms = c.atoms := by
  obtain ⟨a, tail⟩ := c
  simp only [cutAt]
  induction tail generalizing a with
  | nil => simp [cutFrom]
  | cons x rest ih =>
      obtain ⟨o, b⟩ := x
      obtain ⟨c, cs, hcut, hhead, heq⟩ := cutFrom_cons op o a b rest
      have hrest := ih b
      rw [hcut, List.flatMap_cons] at hrest
      rw [heq]
      split_ifs
      · rw [List.flatMap_cons, List.flatMap_cons, hrest]
        rfl
      · obtain ⟨ch, ct⟩ := c
        obtain rfl : ch = b := hhead
        rw [List.flatMap_cons]
        simp only [atoms, List.map_cons, List.cons_append] at hrest ⊢
        rw [hrest]

theorem cutAt_map (f : α → β) (op : Op) (c : Chain α) :
    cutAt op (c.map f) = (cutAt op c).map (map f) := by
  obtain ⟨a, tail⟩ := c
  simp only [cutAt, map]
  induction tail generalizing a with
  | nil => rfl
  | cons x rest ih =>
      obtain ⟨o, b⟩ := x
      obtain ⟨c, cs, hcut, hhead, heq⟩ := cutFrom_cons op o a b rest
      have hmap := ih b
      rw [hcut] at hmap
      rw [heq]
      simp only [List.map_cons] at hmap ⊢
      simp only [cutFrom, hmap, map]
      split_ifs <;> simp [map, hhead]

/-! ## Values -/

section Values

variable [Lattice L]

/-- The value of a chain whose first operand has the value `x`. -/
def valueFrom (f : α → L) (x : L) : List (Op × α) → L
  | [] => x
  | (.and, b) :: rest => valueFrom f (x ⊔ f b) rest
  | (.or, b) :: rest => x ⊓ valueFrom f (f b) rest

def value (f : α → L) (c : Chain α) : L := valueFrom f (f c.head) c.tail

@[simp] theorem value_single (f : α → L) (a : α) : (single a).value f = f a := rfl

theorem value_append_or (f : α → L) (c d : Chain α) :
    (append .or c d).value f = c.value f ⊓ d.value f := by
  obtain ⟨a, tail⟩ := c
  change valueFrom f (f a) _ = valueFrom f (f a) tail ⊓ _
  generalize f a = x
  induction tail generalizing x with
  | nil => rfl
  | cons y rest ih =>
      obtain ⟨o, b⟩ := y
      cases o with
      | and => exact ih _
      | or => exact (congrArg (x ⊓ ·) (ih _)).trans (inf_assoc x _ _).symm

/-- Without OR the value is the join of the operands. -/
theorem valueFrom_of_or_notMem (f : α → L) (x y : L) {tail : List (Op × α)}
    (h : .or ∉ tail.map Prod.fst) : valueFrom f (x ⊔ y) tail = x ⊔ valueFrom f y tail := by
  induction tail generalizing y with
  | nil => rfl
  | cons z rest ih =>
      obtain ⟨o, b⟩ := z
      simp only [List.map_cons, List.mem_cons, not_or] at h
      cases o with
      | and =>
          simp only [valueFrom]
          rw [sup_assoc, ih _ h.2]
      | or => exact (h.1 rfl).elim

theorem value_append_and (f : α → L) {c d : Chain α} (hc : .or ∉ c.ops) (hd : .or ∉ d.ops) :
    (append .and c d).value f = c.value f ⊔ d.value f := by
  obtain ⟨a, tail⟩ := c
  change valueFrom f (f a) _ = valueFrom f (f a) tail ⊔ _
  simp only [ops] at hc
  generalize f a = x
  induction tail generalizing x with
  | nil => exact valueFrom_of_or_notMem f x (f d.head) hd
  | cons y rest ih =>
      obtain ⟨o, b⟩ := y
      simp only [List.map_cons, List.mem_cons, not_or] at hc
      cases o with
      | and => exact ih hc.2 _
      | or => exact (hc.1 rfl).elim

/-- A chain is worth the meet of its OR pieces. -/
theorem value_eq_cutAt [OrderTop L] (f : α → L) (c : Chain α) :
    c.value f = ((cutAt .or c).map (value f)).foldr (· ⊓ ·) ⊤ := by
  have hcut : ∀ (tail : List (Op × α)) (a : α) (x : L), ∃ d ds, cutFrom .or a tail = d :: ds ∧
      valueFrom f x tail = valueFrom f x d.tail ⊓ (ds.map (value f)).foldr (· ⊓ ·) ⊤ := by
    intro tail
    induction tail with
    | nil => exact fun a x ↦ ⟨⟨a, []⟩, [], rfl, by simp [valueFrom]⟩
    | cons y rest ih =>
        intro a x
        obtain ⟨o, b⟩ := y
        obtain ⟨d, ds, hds, hhead, heq⟩ := cutFrom_cons .or o a b rest
        cases o with
        | and =>
            obtain ⟨d', ds', hds', hvalue⟩ := ih b (x ⊔ f b)
            obtain ⟨rfl, rfl⟩ := List.cons.inj (hds.symm.trans hds')
            exact ⟨⟨a, (.and, b) :: d.tail⟩, ds, by rw [heq]; rfl, hvalue⟩
        | or =>
            obtain ⟨d', ds', hds', hvalue⟩ := ih b (f b)
            obtain ⟨rfl, rfl⟩ := List.cons.inj (hds.symm.trans hds')
            refine ⟨_, _, by rw [heq]; rfl, ?_⟩
            simp only [valueFrom, hvalue, List.map_cons, List.foldr_cons, value, hhead]
  obtain ⟨d, ds, hds, hvalue⟩ := hcut c.tail c.head (f c.head)
  have hhead : d.head = c.head := by
    obtain ⟨d', ds', hds', hhead⟩ := exists_cutFrom .or c.head c.tail
    obtain ⟨rfl, -⟩ := List.cons.inj (hds.symm.trans hds')
    exact hhead
  simp only [value, cutAt, hds, List.map_cons, List.foldr_cons, hhead]
  exact hvalue

theorem value_eq_atoms [OrderBot L] (f : α → L) {c : Chain α} (h : .or ∉ c.ops) :
    c.value f = (c.atoms.map f).foldr (· ⊔ ·) ⊥ := by
  obtain ⟨a, tail⟩ := c
  simp only [ops] at h
  simp only [value, atoms, List.map_cons, List.foldr_cons]
  generalize f a = x
  induction tail generalizing x with
  | nil => simp [valueFrom]
  | cons y rest ih =>
      obtain ⟨o, b⟩ := y
      simp only [List.map_cons, List.mem_cons, not_or] at h
      cases o with
      | and =>
          simp only [valueFrom, List.map_cons, List.foldr_cons]
          rw [ih h.2, sup_assoc]
      | or => exact (h.1 rfl).elim

/-- Without OR a chain is worth the join of its AND pieces. -/
theorem value_eq_cutAt_and [OrderBot L] (f : α → L) {c : Chain α} (h : .or ∉ c.ops) :
    c.value f = ((cutAt .and c).map (value f)).foldr (· ⊔ ·) ⊥ := by
  have hsingle : ∀ d ∈ cutAt .and c, [d.value f] = d.atoms.map f := by
    intro d hd
    obtain ⟨a, tail⟩ := d
    have hand := ops_of_mem_cutAt hd
    have hor : .or ∉ ops ⟨a, tail⟩ := fun ho ↦ h (mem_ops_of_mem_cutAt ho hd)
    cases tail with
    | nil => rfl
    | cons x rest =>
        obtain ⟨o, b⟩ := x
        cases o with
        | and => exact (hand (by simp [ops])).elim
        | or => exact (hor (by simp [ops])).elim
  have hmap : (cutAt .and c).map (value f) = c.atoms.map f := by
    rw [← flatMap_atoms_cutAt .and c, List.map_flatMap]
    conv_lhs => rw [← List.flatMap_singleton' ((cutAt .and c).map (value f)), List.flatMap_map]
    exact List.flatMap_congr hsingle
  rw [value_eq_atoms f h, hmap]

end Values

/-- Joining two chains by AND gives at most the join of their values. -/
theorem value_append_and_le [DistribLattice L] (f : α → L) (c d : Chain α) :
    (append .and c d).value f ≤ c.value f ⊔ d.value f := by
  have hfirst : ∀ (tail : List (Op × α)) (x y : L),
      valueFrom f (x ⊔ y) tail ≤ x ⊔ valueFrom f y tail := by
    intro tail
    induction tail with
    | nil => exact fun x y ↦ le_rfl
    | cons z rest ih =>
        intro x y
        obtain ⟨o, b⟩ := z
        cases o with
        | and =>
            simp only [valueFrom]
            rw [sup_assoc]
            exact ih x (y ⊔ f b)
        | or =>
            simp only [valueFrom]
            rw [inf_sup_right]
            exact sup_le_sup_right inf_le_left _
  obtain ⟨a, tail⟩ := c
  change valueFrom f (f a) _ ≤ valueFrom f (f a) tail ⊔ _
  generalize f a = x
  induction tail generalizing x with
  | nil => exact hfirst d.tail x (f d.head)
  | cons y rest ih =>
      obtain ⟨o, b⟩ := y
      cases o with
      | and => exact ih _
      | or =>
          calc x ⊓ valueFrom f (f b) (rest ++ (.and, d.head) :: d.tail)
              ≤ x ⊓ (valueFrom f (f b) rest ⊔ d.value f) := inf_le_inf_left x (ih _)
            _ = x ⊓ valueFrom f (f b) rest ⊔ x ⊓ d.value f := inf_sup_left x _ _
            _ ≤ x ⊓ valueFrom f (f b) rest ⊔ d.value f := sup_le_sup_left inf_le_right _

end Chain

namespace Expr

def eval [Lattice L] (f : α → L) : Expr α → L
  | atom a => f a
  | node .and l r => l.eval f ⊔ r.eval f
  | node .or l r => l.eval f ⊓ r.eval f

/-- The expression with its parentheses erased. -/
def flat : Expr α → Chain α
  | atom a => .single a
  | node op l r => .append op l.flat r.flat

/-- No OR below an AND. -/
def OrAboveAnd : Expr α → Prop
  | atom _ => True
  | node .or l r => l.OrAboveAnd ∧ r.OrAboveAnd
  | node .and l r => .or ∉ l.flat.ops ∧ .or ∉ r.flat.ops

@[simp] theorem atoms_flat (e : Expr α) : e.flat.atoms = e.atoms := by
  induction e with
  | atom a => rfl
  | node op l r ihl ihr => simp [flat, atoms, ihl, ihr]

/-- Erasing the parentheses never raises the value. -/
theorem value_flat_le [DistribLattice L] (f : α → L) (e : Expr α) : e.flat.value f ≤ e.eval f := by
  induction e with
  | atom a => exact le_rfl
  | node op l r ihl ihr =>
      cases op with
      | and => exact (Chain.value_append_and_le f l.flat r.flat).trans (sup_le_sup ihl ihr)
      | or =>
          rw [flat, Chain.value_append_or]
          exact inf_le_inf ihl ihr

/-- Without OR in the erased text an expression keeps its value. -/
theorem value_flat_of_or_notMem [Lattice L] (f : α → L) {e : Expr α} (h : .or ∉ e.flat.ops) :
    e.flat.value f = e.eval f := by
  induction e with
  | atom a => rfl
  | node op l r ihl ihr =>
      simp only [flat, Chain.ops_append, List.mem_append, List.mem_cons, not_or] at h
      cases op with
      | and => rw [flat, Chain.value_append_and f h.1 h.2.2, ihl h.1, ihr h.2.2, eval]
      | or => exact (h.2.1 rfl).elim

/-- Without OR below AND there is nothing to lose. -/
theorem value_flat_of_orAboveAnd [Lattice L] (f : α → L) {e : Expr α} (h : e.OrAboveAnd) :
    e.flat.value f = e.eval f := by
  induction e with
  | atom a => rfl
  | node op l r ihl ihr =>
      cases op with
      | and =>
          apply value_flat_of_or_notMem
          simp only [flat, Chain.ops_append, List.mem_append, List.mem_cons, not_or]
          exact ⟨h.1, by simp, h.2⟩
      | or => rw [flat, Chain.value_append_or, ihl h.1, ihr h.2, eval]

end Expr

end AndOr
