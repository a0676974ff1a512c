import Mathlib.Tactic

/-!
# Effectful computations

A computation reads and changes a state and may raise. What it has done to the
state stays done when it raises. `Logs` is the logic of computations whose
state is a log of events that they only append to.
-/

def Effect (ε σ α : Type) : Type := σ → Except ε α × σ

namespace Effect

variable {ε σ τ α β : Type}

instance : Monad (Effect ε σ) where
  pure a := fun s ↦ (.ok a, s)
  bind m f := fun s ↦
    match m s with
    | (.ok a, s') => f a s'
    | (.error e, s') => (.error e, s')

def get : Effect ε σ σ := fun s ↦ (.ok s, s)

def modify (f : σ → σ) : Effect ε σ Unit := fun s ↦ (.ok (), f s)

def ofExcept (x : Except ε α) : Effect ε σ α := fun s ↦ (x, s)

def raise (e : ε) : Effect ε σ α := fun s ↦ (.error e, s)

/-- A computation that cannot raise. -/
def total (f : σ → α × σ) : Effect ε σ α := fun s ↦ (.ok (f s).1, (f s).2)

/-- `try: m except: handler`. -/
def recover (m : Effect ε σ α) (handler : ε → Effect ε σ α) : Effect ε σ α := fun s ↦
  match m s with
  | (.ok a, s') => (.ok a, s')
  | (.error e, s') => handler e s'

/-- A loop over a list with an accumulator. -/
def foldl (f : β → α → Effect ε σ β) (b : β) : List α → Effect ε σ β
  | [] => pure b
  | a :: l => do
      let b ← f b a
      foldl f b l

/-- The results for the elements of a list, one after the other. -/
def collect (f : α → Effect ε σ (List β)) : List α → Effect ε σ (List β)
  | [] => pure []
  | a :: l => do
      let bs ← f a
      let rest ← collect f l
      pure (bs ++ rest)

/-! ## Running a computation -/

@[simp] theorem pure_apply (a : α) (s : σ) : (pure a : Effect ε σ α) s = (.ok a, s) := rfl

theorem bind_apply (m : Effect ε σ α) (f : α → Effect ε σ β) (s : σ) :
    (m >>= f) s =
      match m s with
      | (.ok a, s') => f a s'
      | (.error e, s') => (.error e, s') := rfl

theorem bind_of_ok {m : Effect ε σ α} {a : α} {s s' : σ} (h : m s = (.ok a, s'))
    (f : α → Effect ε σ β) : (m >>= f) s = f a s' := by
  rw [bind_apply, h]

theorem bind_of_error {m : Effect ε σ α} {e : ε} {s s' : σ} (h : m s = (.error e, s'))
    (f : α → Effect ε σ β) : (m >>= f) s = (.error e, s') := by
  rw [bind_apply, h]

theorem bind_assoc {γ : Type} (m : Effect ε σ α) (f : α → Effect ε σ β) (g : β → Effect ε σ γ) :
    m >>= f >>= g = m >>= fun a ↦ f a >>= g := by
  funext s
  rcases h : m s with ⟨result, s'⟩
  cases result with
  | error e => rw [bind_of_error h, bind_of_error (bind_of_error h f)]
  | ok a => rw [bind_of_ok h, bind_apply, bind_of_ok h, bind_apply]

/-- A run from a state has one result. -/
theorem ok_unique {m : Effect ε σ α} {a a' : α} {s s₁ s₂ : σ} (h : m s = (.ok a, s₁))
    (h' : m s = (.ok a', s₂)) : a = a' ∧ s₁ = s₂ := by
  rw [h, Prod.mk.injEq, Except.ok.injEq] at h'
  exact h'

theorem eq_of_pure {a b : α} {s s' : σ} (h : (pure a : Effect ε σ α) s = (.ok b, s')) :
    a = b ∧ s = s' := by
  rw [pure_apply, Prod.mk.injEq, Except.ok.injEq] at h
  exact h

/-- A sequence that succeeds succeeds in its first part. -/
theorem exists_of_bind_ok {m : Effect ε σ α} {f : α → Effect ε σ β} {b : β} {s s'' : σ}
    (h : (m >>= f) s = (.ok b, s'')) :
    ∃ a s', m s = (.ok a, s') ∧ f a s' = (.ok b, s'') := by
  rcases hrun : m s with ⟨r, s'⟩
  cases r with
  | error e =>
      rw [bind_of_error hrun] at h
      exact absurd (congrArg Prod.fst h) (by simp)
  | ok a =>
      rw [bind_of_ok hrun] at h
      exact ⟨a, s', rfl, h⟩

@[simp] theorem ofExcept_apply (x : Except ε α) (s : σ) : (ofExcept x) s = (x, s) := rfl

theorem ofExcept_of_ok {x : Except ε α} {a : α} (h : x = .ok a) (s : σ) :
    (ofExcept x : Effect ε σ α) s = (.ok a, s) := by
  rw [ofExcept_apply, h]

theorem ofExcept_bind_eq_ok_iff {x : Except ε α} {f : α → Effect ε σ β} {b : β} {s s' : σ} :
    (ofExcept x >>= f) s = (.ok b, s') ↔ ∃ a, x = .ok a ∧ f a s = (.ok b, s') := by
  cases x with
  | error e => simp [bind_apply]
  | ok a => simp [bind_apply]

@[simp] theorem get_apply (s : σ) : (get : Effect ε σ σ) s = (.ok s, s) := rfl

@[simp] theorem modify_apply (f : σ → σ) (s : σ) :
    (modify f : Effect ε σ Unit) s = (.ok (), f s) := rfl

@[simp] theorem total_apply (f : σ → α × σ) (s : σ) :
    (total f : Effect ε σ α) s = (.ok (f s).1, (f s).2) := rfl

theorem recover_of_ok {m : Effect ε σ α} {a : α} {s s' : σ} (h : m s = (.ok a, s'))
    (handler : ε → Effect ε σ α) : m.recover handler s = (.ok a, s') := by
  rw [recover, h]

theorem recover_of_error {m : Effect ε σ α} {e : ε} {s s' : σ} (h : m s = (.error e, s'))
    (handler : ε → Effect ε σ α) : m.recover handler s = handler e s' := by
  rw [recover, h]

theorem collect_cons_of_ok {f : α → Effect ε σ (List β)} {a : α} {l : List α} {bs rest : List β}
    {s s' s'' : σ} (h : f a s = (.ok bs, s')) (hrest : collect f l s' = (.ok rest, s'')) :
    collect f (a :: l) s = (.ok (bs ++ rest), s'') := by
  rw [collect, bind_of_ok h, bind_of_ok hrest, pure_apply]

/-- A loop whose steps return what a function gives returns what the function folds to. -/
theorem foldl_of_ok {f : β → α → Effect ε σ β} {g : β → α → β} {l : List α}
    (h : ∀ a ∈ l, ∀ b s, ∃ s', f b a s = (.ok (g b a), s')) (b : β) (s : σ) :
    ∃ s', foldl f b l s = (.ok (l.foldl g b), s') := by
  induction l generalizing b s with
  | nil => exact ⟨s, rfl⟩
  | cons a l ih =>
      obtain ⟨s', ha⟩ := h a List.mem_cons_self b s
      rw [foldl, bind_of_ok ha]
      exact ih (fun a' ha' ↦ h a' (List.mem_cons_of_mem _ ha')) (g b a) s'

/-- A loop over a list is one over its front and then one over the rest. -/
theorem foldl_append_ok_iff {f : β → α → Effect ε σ β} {l l' : List α} {b b' : β} {s s' : σ} :
    foldl f b (l ++ l') s = (.ok b', s') ↔
      ∃ b₁ s₁, foldl f b l s = (.ok b₁, s₁) ∧ foldl f b₁ l' s₁ = (.ok b', s') := by
  induction l generalizing b s with
  | nil =>
      refine ⟨fun h ↦ ⟨b, s, rfl, h⟩, ?_⟩
      rintro ⟨b₁, s₁, hfront, h⟩
      obtain ⟨rfl, rfl⟩ := eq_of_pure hfront
      exact h
  | cons a l ih =>
      constructor
      · intro h
        obtain ⟨b₀, s₀, hfirst, h⟩ := exists_of_bind_ok h
        obtain ⟨b₁, s₁, hfront, hrest⟩ := ih.mp h
        exact ⟨b₁, s₁, (bind_of_ok hfirst _).trans hfront, hrest⟩
      · rintro ⟨b₁, s₁, h, hrest⟩
        obtain ⟨b₀, s₀, hfirst, hfront⟩ := exists_of_bind_ok h
        exact (bind_of_ok hfirst _).trans (ih.mpr ⟨b₁, s₁, hfront, hrest⟩)

/-- A loop that returns has returned from each of its steps. -/
theorem exists_of_foldl_ok {f : β → α → Effect ε σ β} {l : List α} {b b' : β} {s s' : σ}
    (h : foldl f b l s = (.ok b', s')) {a : α} (ha : a ∈ l) :
    ∃ b₁ s₁ b₂ s₂, f b₁ a s₁ = (.ok b₂, s₂) := by
  induction l generalizing b s with
  | nil => exact absurd ha List.not_mem_nil
  | cons a' l ih =>
      obtain ⟨b₁, s₁, hfirst, hrest⟩ := exists_of_bind_ok h
      rcases List.mem_cons.mp ha with rfl | ha
      · exact ⟨b, s, b₁, s₁, hfirst⟩
      · exact ih hrest ha

/-- What is collected is made of what is returned for each element. -/
theorem exists_blocks_of_collect {f : α → Effect ε σ (List β)} {l : List α} {bs : List β} {s s' : σ}
    (h : collect f l s = (.ok bs, s')) : ∃ blocks, bs = blocks.flatten ∧
      List.Forall₂ (fun a block ↦ ∃ s s', f a s = (.ok block, s')) l blocks := by
  induction l generalizing bs s s' with
  | nil =>
      obtain ⟨rfl, -⟩ := eq_of_pure h
      exact ⟨[], rfl, .nil⟩
  | cons a l ih =>
      obtain ⟨block, s₁, hfirst, h⟩ := exists_of_bind_ok h
      obtain ⟨rest, s₂, hrest, h⟩ := exists_of_bind_ok h
      obtain ⟨rfl, -⟩ := eq_of_pure h
      obtain ⟨blocks, rfl, hall⟩ := ih hrest
      exact ⟨block :: blocks, rfl, .cons ⟨s, s₁, hfirst⟩ hall⟩

/-! ## Results -/

section Returns

variable {Q : α → Prop} {R : β → Prop}

/-- Whatever the computation returns satisfies `Q`. -/
def Returns (m : Effect ε σ α) (Q : α → Prop) : Prop := ∀ s a s', m s = (.ok a, s') → Q a

theorem Returns.pure {a : α} (h : Q a) : Returns (pure a : Effect ε σ α) Q := by
  rintro s a' s' hrun
  rw [pure_apply, Prod.mk.injEq, Except.ok.injEq] at hrun
  rwa [← hrun.1]

theorem Returns.raise {e : ε} : Returns (raise e : Effect ε σ α) Q := by
  rintro s a s' hrun
  exact absurd (congrArg Prod.fst hrun) (by simp [Effect.raise])

theorem Returns.ofExcept {x : Except ε α} (h : ∀ a, x = .ok a → Q a) :
    Returns (ofExcept x : Effect ε σ α) Q := fun _ a _ hrun ↦ h a (congrArg Prod.fst hrun)

theorem Returns.trivial (m : Effect ε σ α) : Returns m fun _ ↦ True := fun _ _ _ _ ↦ True.intro

theorem Returns.mono {m : Effect ε σ α} {Q' : α → Prop} (h : Returns m Q)
    (hQ : ∀ a, Q a → Q' a) : Returns m Q' := fun s a s' hrun ↦ hQ a (h s a s' hrun)

theorem Returns.bind {m : Effect ε σ α} {f : α → Effect ε σ β} (hm : Returns m Q)
    (hf : ∀ a, Q a → Returns (f a) R) : Returns (m >>= f) R := by
  intro s b s'' hrun
  obtain ⟨a, s', ha, hb⟩ := exists_of_bind_ok hrun
  exact hf a (hm s a s' ha) s' b s'' hb

theorem Returns.collect {f : α → Effect ε σ (List β)} {l : List α}
    (h : ∀ a ∈ l, Returns (f a) fun bs ↦ ∀ b ∈ bs, R b) :
    Returns (collect f l) fun bs ↦ ∀ b ∈ bs, R b := by
  induction l with
  | nil => exact Returns.pure (by simp)
  | cons a l ih =>
      refine Returns.bind (h a List.mem_cons_self) fun bs hbs ↦ ?_
      refine Returns.bind (ih fun a' ha' ↦ h a' (List.mem_cons_of_mem _ ha')) fun rest hrest ↦ ?_
      refine Returns.pure fun b hb ↦ ?_
      exact (List.mem_append.mp hb).elim (hbs b) (hrest b)

/-- One result for each element, in their order. -/
theorem Returns.forall₂_collect {f : α → Effect ε σ β} {S : α → β → Prop} {l : List α}
    (h : ∀ a, Returns (f a) (S a)) :
    Returns (Effect.collect (fun a ↦ do
      let b ← f a
      Pure.pure [b]) l) (List.Forall₂ S l) := by
  induction l with
  | nil => exact Returns.pure .nil
  | cons a l ih =>
      have hfirst : Returns (f a >>= fun b ↦ Pure.pure [b]) fun bs ↦ ∃ b, bs = [b] ∧ S a b :=
        (h a).bind fun b hb ↦ Returns.pure ⟨b, rfl, hb⟩
      refine hfirst.bind fun bs hbs ↦ ih.bind fun rest hrest ↦ Returns.pure ?_
      obtain ⟨b, rfl, hb⟩ := hbs
      exact .cons hb hrest

end Returns

/-! ## Computations that do not raise -/

section ReturnsIff

variable {c d : Prop}

/-- From every state the computation returns exactly when `c` holds. -/
def ReturnsIff (m : Effect ε σ α) (c : Prop) : Prop := ∀ s, (∃ a s', m s = (.ok a, s')) ↔ c

theorem ReturnsIff.pure (a : α) : ReturnsIff (pure a : Effect ε σ α) True := fun s ↦
  iff_of_true ⟨a, s, rfl⟩ True.intro

theorem ReturnsIff.total (f : σ → α × σ) : ReturnsIff (total f : Effect ε σ α) True := fun _ ↦
  iff_of_true ⟨_, _, rfl⟩ True.intro

theorem ReturnsIff.ofExcept (x : Except ε α) :
    ReturnsIff (ofExcept x : Effect ε σ α) (∃ a, x = .ok a) := by
  intro s
  refine exists_congr fun a ↦ ⟨fun ⟨s', hrun⟩ ↦ congrArg Prod.fst hrun, fun hok ↦ ⟨s, ?_⟩⟩
  exact ofExcept_of_ok hok s

theorem ReturnsIff.congr {m : Effect ε σ α} (h : ReturnsIff m c) (hiff : c ↔ d) :
    ReturnsIff m d := fun s ↦ (h s).trans hiff

theorem ReturnsIff.bind {m : Effect ε σ α} {f : α → Effect ε σ β} (hm : ReturnsIff m c)
    (hf : ∀ s a s', m s = (.ok a, s') → ReturnsIff (f a) d) : ReturnsIff (m >>= f) (c ∧ d) := by
  intro s
  constructor
  · rintro ⟨b, s'', hrun⟩
    obtain ⟨a, s', ha, hb⟩ := exists_of_bind_ok hrun
    exact ⟨(hm s).mp ⟨a, s', ha⟩, (hf s a s' ha s').mp ⟨b, s'', hb⟩⟩
  · rintro ⟨hc, hd⟩
    obtain ⟨a, s', ha⟩ := (hm s).mpr hc
    obtain ⟨b, s'', hb⟩ := (hf s a s' ha s').mpr hd
    exact ⟨b, s'', (bind_of_ok ha f).trans hb⟩

/-- What follows a computation that returns a known value decides for both. -/
theorem ReturnsIff.bind_of_ok {m : Effect ε σ α} {f : α → Effect ε σ β} {a : α}
    (hm : ∀ s, ∃ s', m s = (.ok a, s')) (hf : ReturnsIff (f a) d) : ReturnsIff (m >>= f) d := by
  intro s
  obtain ⟨s', hrun⟩ := hm s
  rw [Effect.bind_of_ok hrun]
  exact hf s'

theorem ReturnsIff.collect {f : α → Effect ε σ (List β)} {l : List α} {c : α → Prop}
    (h : ∀ a ∈ l, ReturnsIff (f a) (c a)) : ReturnsIff (collect f l) (∀ a ∈ l, c a) := by
  induction l with
  | nil => exact (ReturnsIff.pure _).congr (by simp)
  | cons a l ih =>
      have hrest := ih fun a' ha' ↦ h a' (List.mem_cons_of_mem _ ha')
      refine ReturnsIff.congr (c := c a ∧ (∀ a' ∈ l, c a') ∧ True) ?_ (by simp)
      refine ReturnsIff.bind (h a List.mem_cons_self) fun _ _ _ _ ↦ ?_
      exact ReturnsIff.bind hrest fun _ _ _ _ ↦ ReturnsIff.pure _

end ReturnsIff

/-! ## Computations over a log -/

section Logs

variable {ω γ : Type} {P C : ω → Prop} {Q : α → Prop} {R : β → Prop}

/-- The computation appends events that satisfy `P` to the log, the latest
first, and a result satisfies `Q` when all events appended satisfy `C`. -/
def Logs (P C : ω → Prop) (m : Effect ε (List ω) α) (Q : α → Prop) : Prop :=
  ∀ h, ∃ new, (m h).2 = new ++ h ∧ (∀ e ∈ new, P e) ∧
    ((∀ e ∈ new, C e) → ∀ a, (m h).1 = .ok a → Q a)

theorem Logs.silent {m : Effect ε (List ω) α} (hlog : ∀ h, (m h).2 = h)
    (hresult : ∀ h a, (m h).1 = .ok a → Q a) : Logs P C m Q := fun h ↦
  ⟨[], hlog h, by simp, fun _ ↦ hresult h⟩

theorem Logs.pure {a : α} (h : Q a) : Logs P C (pure a : Effect ε (List ω) α) Q := by
  apply Logs.silent (fun _ ↦ rfl)
  rintro h' a' ⟨⟩
  exact h

theorem Logs.ofExcept {x : Except ε α} (h : ∀ a, x = .ok a → Q a) :
    Logs P C (ofExcept x : Effect ε (List ω) α) Q :=
  Logs.silent (fun _ ↦ rfl) fun _ ↦ h

theorem Logs.mono {m : Effect ε (List ω) α} {Q' : α → Prop} (h : Logs P C m Q)
    (hQ : ∀ a, Q a → Q' a) : Logs P C m Q' := by
  intro log
  obtain ⟨new, hlog, hP, hres⟩ := h log
  exact ⟨new, hlog, hP, fun hC a ha ↦ hQ a (hres hC a ha)⟩

theorem Logs.of_returns {m : Effect ε (List ω) α} (h : Logs P C m fun _ ↦ True)
    (hreturns : Returns m Q) : Logs P C m Q := by
  intro log
  obtain ⟨new, hlog, hP, -⟩ := h log
  exact ⟨new, hlog, hP, fun _ a ha ↦ hreturns log a _ (Prod.ext ha rfl)⟩

theorem Logs.returns {m : Effect ε (List ω) α} (h : Logs P C m Q) (hC : ∀ e, C e) :
    Returns m Q := by
  intro log a log' hrun
  obtain ⟨new, -, -, hres⟩ := h log
  exact hres (fun e _ ↦ hC e) a (congrArg Prod.fst hrun)

/-- The first result is an assumption on the second, not on what is appended. -/
theorem Logs.bind {m : Effect ε (List ω) α} {f : α → Effect ε (List ω) β} (hm : Logs P C m Q)
    (hf : ∀ a, Logs P C (f a) fun b ↦ Q a → R b) : Logs P C (m >>= f) R := by
  intro h
  obtain ⟨new, hlog, hP, hres⟩ := hm h
  rcases hrun : m h with ⟨r, h'⟩
  rw [hrun] at hlog hres
  obtain rfl : h' = new ++ h := hlog
  cases r with
  | error e =>
      rw [bind_of_error hrun]
      exact ⟨new, rfl, hP, by simp⟩
  | ok a =>
      rw [bind_of_ok hrun]
      obtain ⟨new', hlog', hP', hres'⟩ := hf a (new ++ h)
      refine ⟨new' ++ new, ?_, ?_, ?_⟩
      · rw [hlog', List.append_assoc]
      · exact fun e he ↦ (List.mem_append.mp he).elim (hP' e) (hP e)
      · intro hC b hb
        refine hres' (fun e he ↦ hC e (List.mem_append_left _ he)) b hb ?_
        exact hres (fun e he ↦ hC e (List.mem_append_right _ he)) a rfl

/-- What the first part always returns may be assumed on the second altogether. -/
theorem Logs.bind_of_returns {m : Effect ε (List ω) α} {f : α → Effect ε (List ω) β}
    (hm : Logs P C m fun _ ↦ True) (hreturns : Returns m Q)
    (hf : ∀ a, Q a → Logs P C (f a) R) : Logs P C (m >>= f) R := by
  intro h
  obtain ⟨new, hlog, hP, -⟩ := hm h
  rcases hrun : m h with ⟨r, h'⟩
  rw [hrun] at hlog
  obtain rfl : h' = new ++ h := hlog
  cases r with
  | error e =>
      rw [bind_of_error hrun]
      exact ⟨new, rfl, hP, by simp⟩
  | ok a =>
      rw [bind_of_ok hrun]
      obtain ⟨new', hlog', hP', hres'⟩ := hf a (hreturns h a _ hrun) (new ++ h)
      refine ⟨new' ++ new, ?_, ?_, ?_⟩
      · rw [hlog', List.append_assoc]
      · exact fun e he ↦ (List.mem_append.mp he).elim (hP' e) (hP e)
      · exact fun hC ↦ hres' fun e he ↦ hC e (List.mem_append_left _ he)

theorem Logs.recover {m : Effect ε (List ω) α} {handler : ε → Effect ε (List ω) α}
    (hm : Logs P C m Q) (hhandler : ∀ e, Logs P C (handler e) Q) :
    Logs P C (m.recover handler) Q := by
  intro h
  obtain ⟨new, hlog, hP, hres⟩ := hm h
  rcases hrun : m h with ⟨r, h'⟩
  rw [hrun] at hlog hres
  obtain rfl : h' = new ++ h := hlog
  unfold Effect.recover
  rw [hrun]
  cases r with
  | ok a => exact ⟨new, rfl, hP, hres⟩
  | error e =>
      obtain ⟨new', hlog', hP', hres'⟩ := hhandler e (new ++ h)
      refine ⟨new' ++ new, ?_, ?_, ?_⟩
      · rw [hlog', List.append_assoc]
      · exact fun e he ↦ (List.mem_append.mp he).elim (hP' e) (hP e)
      · exact fun hC ↦ hres' fun e he ↦ hC e (List.mem_append_left _ he)

theorem Logs.foldl {f : β → α → Effect ε (List ω) β} {l : List α} (b : β)
    (h : ∀ a ∈ l, ∀ b, Logs P C (f b a) fun b' ↦ R b → R b') :
    Logs P C (foldl f b l) fun b' ↦ R b → R b' := by
  induction l generalizing b with
  | nil => exact Logs.pure id
  | cons a l ih =>
      refine Logs.bind (h a List.mem_cons_self b) fun b' ↦ ?_
      exact (ih b' fun a' ha' ↦ h a' (List.mem_cons_of_mem _ ha')).mono
        fun _ hstep hfirst hb ↦ hstep (hfirst hb)

theorem Logs.collect {f : α → Effect ε (List ω) (List β)} {l : List α}
    (h : ∀ a ∈ l, Logs P C (f a) fun bs ↦ ∀ b ∈ bs, R b) :
    Logs P C (collect f l) fun bs ↦ ∀ b ∈ bs, R b := by
  induction l with
  | nil => exact Logs.pure (by simp)
  | cons a l ih =>
      refine Logs.bind (h a List.mem_cons_self) fun bs ↦ ?_
      refine Logs.bind (ih fun a' ha' ↦ h a' (List.mem_cons_of_mem _ ha')) fun rest ↦ ?_
      refine Logs.pure fun hrest hbs b hb ↦ ?_
      exact (List.mem_append.mp hb).elim (hbs b) (hrest b)

end Logs

/-! ## What a computation leaves alone -/

/-- However the computation ends, the part of the state is as it was. -/
def Keeps (part : σ → τ) (m : Effect ε σ α) : Prop := ∀ s, part (m s).2 = part s

variable {part : σ → τ}

theorem Keeps.pure (a : α) : Keeps part (pure a : Effect ε σ α) := fun _ ↦ rfl

theorem Keeps.get : Keeps part (get : Effect ε σ σ) := fun _ ↦ rfl

theorem Keeps.raise (e : ε) : Keeps part (raise e : Effect ε σ α) := fun _ ↦ rfl

theorem Keeps.ofExcept (x : Except ε α) : Keeps part (ofExcept x : Effect ε σ α) := fun _ ↦ rfl

theorem Keeps.modify {f : σ → σ} (h : ∀ s, part (f s) = part s) :
    Keeps part (modify f : Effect ε σ Unit) := h

theorem Keeps.bind {m : Effect ε σ α} {f : α → Effect ε σ β} (hm : Keeps part m)
    (hf : ∀ a, Keeps part (f a)) : Keeps part (m >>= f) := by
  intro s
  rcases hrun : m s with ⟨r, s'⟩
  have hs : part s' = part s := by simpa [hrun] using hm s
  cases r with
  | error e => rw [bind_of_error hrun, hs]
  | ok a => rw [bind_of_ok hrun, hf a s', hs]

theorem Keeps.foldl {f : β → α → Effect ε σ β} (hf : ∀ b a, Keeps part (f b a)) (b : β)
    (l : List α) : Keeps part (Effect.foldl f b l) := by
  induction l generalizing b with
  | nil => exact .pure b
  | cons a l ih => exact (hf b a).bind fun b' ↦ ih b'

end Effect
