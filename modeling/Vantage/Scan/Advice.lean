import Vantage.Scan.Completion
import Vantage.Findings.Proof

/-!
# Advice only

Whatever the provider does, an assessment speaks of findings of the input only
and is disabled when there is nothing to read. It can fail in three places: the
question whether the provider is there, the reading of the reply, and a rank
that looks like a number and is none.
-/

namespace Vantage.Scan

open Text Ai

variable {σ : Type} (loads : String → Except PyError Json) (provider : LLMProvider σ)
  (findings : List UnifiedFinding) (s : σ)

/-! ## What the provider does -/

/-- It raises when it is asked. -/
def Fails : Prop :=
  (∃ e s', provider.available s = (.error e, s')) ∨
    ∃ s', provider.available s = (.ok true, s') ∧
      ∃ e s'', provider.complete findings s' = (.error e, s'')

def Replies (resp : LLMResponse) : Prop :=
  ∃ s' s'', provider.available s = (.ok true, s') ∧
    provider.complete findings s' = (.ok resp, s'')

/-- No part of a text is a JSON object. -/
def HoldsNoObject (text : String) : Prop :=
  ∀ part : List Char, part <:+: text.toList → ∀ members, loads (String.ofList part) ≠ .ok (.obj members)

/-! ## Advice -/

/-- The ids of the findings. -/
def ids : List String := findings.map UnifiedFinding.id

/-- An assessment that speaks of the findings only, and of none when there is
nothing to read. -/
structure Advice (a : AiAssessment) : Prop where
  annotations_known : ∀ entry ∈ a.annotations, entry.1 ∈ ids findings
  groups_known : ∀ group ∈ a.groups, ∀ id ∈ group.2, id ∈ ids findings
  silent : Fails provider findings s ∨
      (∃ resp, Replies provider findings s resp ∧ HoldsNoObject loads resp.text) →
    a.enabled = false ∧ a.annotations = []

def Advises : Prop :=
  ∃ a s', assess loads provider findings s = (.ok a, s') ∧ Advice loads provider findings s a

/-- A rank that looks like a number is one. -/
def RankReadable (rank : Json) : Prop :=
  ∀ text, rank = .str text →
    isDigitText ((stripChars isSpace text.toList).dropWhile (· == '-')) = true →
      (parseInt text).isSome = true

/-- The items of a reply. -/
def itemsOf (data : List (String × Json)) : List Json :=
  match Json.get data "findings" with
  | .arr items => items
  | _ => []

/-- The reply can be read, and so can the rank of each item that names a finding. -/
def Readable (resp : LLMResponse) : Prop :=
  ∃ data, resp.json loads = .ok data ∧ ∀ members, data = .obj members →
    ∀ item, Json.obj item ∈ itemsOf members →
      (Json.getD item "id" (.str "")).pyStr ∈ ids findings →
        RankReadable (Json.get item "priority_rank")

/-! ## Items of the reply -/

variable {loads provider findings s}

theorem exists_annotationOf_iff {findingId : String} {item : List (String × Json)} :
    (∃ annotation, annotationOf findingId item = .ok annotation) ↔
      RankReadable (Json.get item "priority_rank") := by
  have hrank : (∃ annotation, annotationOf findingId item = .ok annotation) ↔
      ∃ rank, intOrNone (Json.get item "priority_rank") = .ok rank := by
    unfold annotationOf
    cases intOrNone (Json.get item "priority_rank") with
    | error e =>
        refine ⟨?_, ?_⟩
        · rintro ⟨_, h⟩
          exact nomatch h
        · rintro ⟨_, h⟩
          exact nomatch h
    | ok rank => exact ⟨fun _ ↦ ⟨rank, rfl⟩, fun _ ↦ ⟨_, rfl⟩⟩
  rw [hrank]
  cases Json.get item "priority_rank" with
  | str text =>
      simp only [intOrNone, RankReadable, Json.str.injEq, forall_eq']
      split_ifs with hdigits
      · cases parseInt text <;> simp [hdigits]
      · simp [hdigits]
  | _ => simp [intOrNone, RankReadable]

theorem mem_assign {α : Type} {key : String} {value : α} {d : List (String × α)}
    {entry : String × α} (h : entry ∈ assign key value d) : entry.1 = key ∨ entry ∈ d := by
  unfold assign at h
  split_ifs at h with hany
  · obtain ⟨old, hold, rfl⟩ := List.mem_map.mp h
    split_ifs with hkey
    · exact Or.inl rfl
    · exact Or.inr hold
  · rcases List.mem_append.mp h with hold | hnew
    · exact Or.inr hold
    · rw [List.mem_singleton.mp hnew]
      exact Or.inl rfl

/-- Every annotation is under the id of a finding, whatever the items are. -/
theorem annotate_spec {validIds : List String} {items : List Json}
    {acc out : List (String × AiAnnotation) × ℕ} (hacc : ∀ entry ∈ acc.1, entry.1 ∈ validIds)
    (h : annotate validIds items acc = .ok out) : ∀ entry ∈ out.1, entry.1 ∈ validIds := by
  induction items generalizing acc with
  | nil =>
      obtain rfl : acc = out := by simpa [annotate] using h
      exact hacc
  | cons item items ih =>
      cases item with
      | obj members =>
          obtain ⟨annotations, dropped⟩ := acc
          simp only [annotate] at h
          by_cases hid : (Json.getD members "id" (.str "")).pyStr ∈ validIds
          · rw [if_neg (not_not.mpr hid)] at h
            cases hann : annotationOf (Json.getD members "id" (.str "")).pyStr members with
            | error e => simp [hann] at h
            | ok a =>
                rw [hann] at h
                refine ih (fun entry hentry ↦ ?_) h
                rcases mem_assign hentry with hkey | hold
                · rw [hkey]
                  exact hid
                · exact hacc entry hold
          · rw [if_pos hid] at h
            refine ih ?_ h
            exact hacc
      | _ => exact ih hacc (by simpa [annotate] using h)

theorem exists_annotate_iff {validIds : List String} {items : List Json}
    {acc : List (String × AiAnnotation) × ℕ} :
    (∃ out, annotate validIds items acc = .ok out) ↔
      ∀ item, Json.obj item ∈ items → (Json.getD item "id" (.str "")).pyStr ∈ validIds →
        RankReadable (Json.get item "priority_rank") := by
  induction items generalizing acc with
  | nil => simp [annotate]
  | cons item items ih =>
      cases item with
      | obj members =>
          obtain ⟨annotations, dropped⟩ := acc
          simp only [annotate, List.mem_cons, Json.obj.injEq, forall_eq_or_imp]
          by_cases hid : (Json.getD members "id" (.str "")).pyStr ∈ validIds
          · rw [if_neg (not_not.mpr hid)]
            cases hann : annotationOf (Json.getD members "id" (.str "")).pyStr members with
            | error e =>
                have hrank : ¬ RankReadable (Json.get members "priority_rank") := fun hr ↦ by
                  obtain ⟨a, ha⟩ := exists_annotationOf_iff.mpr hr
                  exact nomatch hann.symm.trans ha
                simp [hid, hrank]
            | ok a =>
                have hrank := exists_annotationOf_iff.mp ⟨a, hann⟩
                simp only [ih, hid, hrank, true_imp_iff, true_and]
          · rw [if_pos hid]
            simp only [ih, hid, false_imp_iff, true_and]
      | _ => simpa [annotate] using ih

/-! ## Groups -/

theorem mem_appendTo {key value : String} {d : List (String × List String)}
    {group : String × List String} {id : String} (h : group ∈ appendTo key value d)
    (hid : id ∈ group.2) : id = value ∨ ∃ old ∈ d, id ∈ old.2 := by
  unfold appendTo at h
  split_ifs at h with hany
  · obtain ⟨old, hold, rfl⟩ := List.mem_map.mp h
    split_ifs at hid with hkey
    · rcases List.mem_append.mp hid with hid | hid
      · exact Or.inr ⟨old, hold, hid⟩
      · exact Or.inl (List.mem_singleton.mp hid)
    · exact Or.inr ⟨old, hold, hid⟩
  · rcases List.mem_append.mp h with hold | hnew
    · exact Or.inr ⟨group, hold, hid⟩
    · rw [List.mem_singleton.mp hnew] at hid
      exact Or.inl (List.mem_singleton.mp hid)

theorem groupsOf_spec {annotations : List (String × AiAnnotation)} {P : String → Prop}
    (h : ∀ entry ∈ annotations, P entry.1) : ∀ group ∈ groupsOf annotations, ∀ id ∈ group.2, P id := by
  unfold groupsOf
  refine List.foldlRecOn (motive := fun groups : List (String × List String) ↦
      ∀ group ∈ groups, ∀ id ∈ group.2, P id)
    annotations _ (by simp) fun groups hgroups entry hentry ↦ ?_
  cases entry.2.groupId with
  | none => exact hgroups
  | some name =>
      dsimp only
      split_ifs
      · exact hgroups
      · intro group hgroup id hid
        rcases mem_appendTo hgroup hid with rfl | ⟨old, hold, hid⟩
        · exact h entry hentry
        · exact hgroups old hold id hid

/-! ## Where the JSON of a reply comes from -/

theorem prefix_beforeText {sub l front : List Char} (h : beforeText sub l = some front) :
    front <+: l := by
  induction l generalizing front with
  | nil =>
      simp only [beforeText] at h
      split_ifs at h
      cases h
      exact List.nil_prefix
  | cons c l ih =>
      simp only [beforeText] at h
      split_ifs at h
      · cases h
        exact List.nil_prefix
      · obtain ⟨front, hfront, rfl⟩ := Option.map_eq_some_iff.mp h
        exact (List.prefix_cons_inj c).mpr (ih hfront)

theorem suffix_removePrefix (p l : List Char) : removePrefix p l <:+ l := by
  unfold removePrefix
  split_ifs
  · exact List.drop_suffix _ _
  · exact List.suffix_rfl

theorem infix_unfence (text : List Char) : unfence text <:+: text := by
  unfold unfence
  split_ifs
  · refine (infix_stripChars _ _).trans ((suffix_removePrefix _ _).isInfix.trans ?_)
    cases h : beforeText fence (text.drop 3) with
    | none => exact List.infix_rfl
    | some body => exact (prefix_beforeText h).isInfix.trans (List.drop_suffix 3 text).isInfix
  · exact List.infix_rfl

theorem infix_outermost {opener closer : Char} {text inner : List Char}
    (h : outermost opener closer text = some inner) : inner <:+: text := by
  simp only [outermost] at h
  split_ifs at h
  cases h
  exact (prefix_rstripChars _ _).isInfix.trans (List.dropWhile_suffix _).isInfix

/-- An object in a reply is read from a part of its text. -/
theorem bracketed_spec {text : List Char} {brackets : List (Char × Char)}
    {members : List (String × Json)} (h : bracketed loads text brackets = .ok (.obj members)) :
    ∃ part, part <:+: text ∧ loads (String.ofList part) = .ok (.obj members) := by
  induction brackets with
  | nil => simp [bracketed] at h
  | cons bracket rest ih =>
      simp only [bracketed] at h
      cases hinner : outermost bracket.1 bracket.2 text with
      | none => exact ih (by simpa [hinner] using h)
      | some inner =>
          simp only [hinner] at h
          split at h
          · exact ih h
          · exact ⟨inner, infix_outermost hinner, h⟩

theorem json_spec {resp : LLMResponse} {members : List (String × Json)}
    (h : resp.json loads = .ok (.obj members)) :
    ∃ part, part <:+: resp.text.toList ∧ loads (String.ofList part) = .ok (.obj members) := by
  have hinfix : unfence (stripChars isSpace resp.text.toList) <:+: resp.text.toList :=
    (infix_unfence _).trans (infix_stripChars _ _)
  simp only [LLMResponse.json] at h
  split at h
  · obtain ⟨part, hpart, hread⟩ := bracketed_spec h
    exact ⟨part, hpart.trans hinfix, hread⟩
  · exact ⟨_, hinfix, h⟩

/-! ## The assessment of a reply -/

/-- The assessment with the annotations of a reply. -/
def withAnnotations (base : AiAssessment) (out : List (String × AiAnnotation) × ℕ) :
    AiAssessment :=
  { base with
    annotations := out.1
    groups := groupsOf out.1
    notes := if out.2 = 0 then base.notes else base.notes ++
      ["Dropped " ++ toString out.2 ++ " AI reference(s) to unknown finding ids."] }

theorem assessmentOf_obj (base : AiAssessment) (validIds : List String)
    (members : List (String × Json)) : assessmentOf base validIds (.obj members) =
      (annotate validIds (itemsOf members) ([], 0)).map (withAnnotations base) := by
  simp only [assessmentOf, itemsOf]
  cases Json.get members "findings" with
  | arr items => cases annotate validIds items ([], 0) <;> rfl
  | _ => rfl

theorem exists_assessmentOf_iff {base : AiAssessment} {validIds : List String} {data : Json} :
    (∃ ai, assessmentOf base validIds data = .ok ai) ↔
      ∀ members, data = .obj members → ∀ item, Json.obj item ∈ itemsOf members →
        (Json.getD item "id" (.str "")).pyStr ∈ validIds →
          RankReadable (Json.get item "priority_rank") := by
  cases data with
  | obj members =>
      have hread : (∃ out, annotate validIds (itemsOf members) ([], 0) = .ok out) ↔ _ :=
        exists_annotate_iff
      simp only [assessmentOf_obj, Json.obj.injEq, forall_eq', ← hread]
      cases annotate validIds (itemsOf members) ([], 0) with
      | error e => simp [Except.map]
      | ok out => simp [Except.map]
  | _ => simp [assessmentOf]

/-- An assessment of a reply speaks of known ids only; it is disabled unless the
reply is an object. -/
theorem assessmentOf_spec {base ai : AiAssessment} {validIds : List String} {data : Json}
    (hempty : base.annotations = [] ∧ base.groups = [])
    (h : assessmentOf base validIds data = .ok ai) :
    (∀ entry ∈ ai.annotations, entry.1 ∈ validIds) ∧
      (∀ group ∈ ai.groups, ∀ id ∈ group.2, id ∈ validIds) ∧
        ((∀ members, data ≠ .obj members) → ai.enabled = false ∧ ai.annotations = []) := by
  have hother : ∀ ai', ai' = ai → ai'.annotations = [] → ai'.groups = [] → ai'.enabled = false →
      (∀ entry ∈ ai.annotations, entry.1 ∈ validIds) ∧
        (∀ group ∈ ai.groups, ∀ id ∈ group.2, id ∈ validIds) ∧
          ((∀ members, data ≠ .obj members) → ai.enabled = false ∧ ai.annotations = []) := by
    rintro _ rfl hannotations hgroups henabled
    simp [hannotations, hgroups, henabled]
  cases data with
  | obj members =>
      rw [assessmentOf_obj] at h
      cases hout : annotate validIds (itemsOf members) ([], 0) with
      | error e => simp [hout, Except.map] at h
      | ok out =>
          rw [hout] at h
          obtain rfl : withAnnotations base out = ai := by simpa [Except.map] using h
          have hknown := annotate_spec (by simp) hout
          exact ⟨hknown, groupsOf_spec hknown, fun hno ↦ absurd rfl (hno members)⟩
  | _ =>
      simp only [assessmentOf, Except.ok.injEq] at h
      exact hother _ h hempty.1 hempty.2 rfl

/-! ## The provider -/

theorem advice_disabled {a : AiAssessment} (hannotations : a.annotations = [])
    (hgroups : a.groups = []) (henabled : a.enabled = false) : Advice loads provider findings s a where
  annotations_known := by simp [hannotations]
  groups_known := by simp [hgroups]
  silent _ := ⟨henabled, hannotations⟩

theorem advice_of_reply {resp : LLMResponse} {data : Json} {ai : AiAssessment}
    (hreply : Replies provider findings s resp) (hjson : resp.json loads = .ok data)
    (hread : assessmentOf
      { provider := provider.name
        model := provider.modelId
        modelLicense := provider.modelLicense } (ids findings) data = .ok ai) :
    Advice loads provider findings s ai := by
  obtain ⟨hknown, hgroups, hother⟩ := assessmentOf_spec ⟨rfl, rfl⟩ hread
  refine ⟨hknown, hgroups, ?_⟩
  obtain ⟨s', s'', havailable, hcomplete⟩ := hreply
  rintro ((⟨e, s₁, hfails⟩ | ⟨s₁, hasked, e, s₂, hfails⟩) | ⟨resp', ⟨s₁, s₂, hasked, hreplied⟩, hno⟩)
  · exact nomatch hfails.symm.trans havailable
  · obtain rfl : s' = s₁ := congrArg Prod.snd (havailable.symm.trans hasked)
    exact nomatch hfails.symm.trans hcomplete
  · obtain rfl : s' = s₁ := congrArg Prod.snd (havailable.symm.trans hasked)
    obtain ⟨rfl, -⟩ := Effect.ok_unique hcomplete hreplied
    apply hother
    rintro members rfl
    obtain ⟨part, hpart, hobject⟩ := json_spec hjson
    exact hno part hpart members hobject

/-- What the analyst returns is advice. -/
theorem advice_of_ok {a : AiAssessment} {s' : σ}
    (h : assess loads provider findings s = (.ok a, s')) : Advice loads provider findings s a := by
  cases findings with
  | nil =>
      obtain rfl : AiAssessment.disabled = a := congrArg (fun r ↦ r.1.toOption.getD a) h
      exact advice_disabled rfl rfl rfl
  | cons f findings =>
      obtain ⟨available, w₁, havailable, h⟩ := Effect.exists_of_bind_ok h
      cases available with
      | false =>
          obtain ⟨rfl, -⟩ := Effect.eq_of_pure h
          exact advice_disabled rfl rfl rfl
      | true =>
          rcases hcomplete : provider.complete (f :: findings) w₁ with ⟨result, w₂⟩
          cases result with
          | error e =>
              have hreply := Effect.recover_of_error
                (Effect.bind_of_error hcomplete fun resp ↦ pure (some resp)) fun _ ↦ pure none
              have hrest := (Effect.bind_of_ok hreply _).symm.trans h
              obtain ⟨rfl, -⟩ := Effect.eq_of_pure hrest
              exact advice_disabled rfl rfl rfl
          | ok resp =>
              have hreply := Effect.recover_of_ok
                ((Effect.bind_of_ok hcomplete fun resp ↦ pure (some resp)).trans rfl)
                fun _ ↦ pure none
              have hrest := (Effect.bind_of_ok hreply _).symm.trans h
              obtain ⟨data, w₃, hjson, hread⟩ := Effect.exists_of_bind_ok hrest
              exact advice_of_reply ⟨w₁, w₂, havailable, hcomplete⟩ (congrArg Prod.fst hjson)
                (congrArg Prod.fst hread)

theorem assessmentReturns_iff : AssessmentReturns loads provider findings s ↔
    findings = [] ∨ (∃ b s', provider.available s = (.ok b, s')) ∧
      ∀ resp, Replies provider findings s resp → Readable loads findings resp := by
  constructor
  · intro h
    cases h with
    | empty hfindings => exact Or.inl hfindings
    | unavailable havailable =>
        refine Or.inr ⟨⟨_, _, havailable⟩, ?_⟩
        rintro resp ⟨s₁, s₂, hasked, -⟩
        exact nomatch havailable.symm.trans hasked
    | @silent e w₁ w' havailable hcomplete =>
        refine Or.inr ⟨⟨_, _, havailable⟩, ?_⟩
        rintro resp ⟨s₁, s₂, hasked, hreplied⟩
        obtain rfl : w₁ = s₁ := congrArg Prod.snd (havailable.symm.trans hasked)
        exact nomatch hcomplete.symm.trans hreplied
    | @replied resp data ai w₁ w' havailable hcomplete hjson hread =>
        refine Or.inr ⟨⟨_, _, havailable⟩, ?_⟩
        rintro resp' ⟨s₁, s₂, hasked, hreplied⟩
        obtain rfl : w₁ = s₁ := congrArg Prod.snd (havailable.symm.trans hasked)
        obtain ⟨rfl, -⟩ := Effect.ok_unique hcomplete hreplied
        exact ⟨data, hjson, exists_assessmentOf_iff.mp ⟨ai, hread⟩⟩
  · rintro (hfindings | ⟨⟨b, s₁, havailable⟩, hreadable⟩)
    · exact .empty hfindings
    · cases b with
      | false => exact .unavailable havailable
      | true =>
          rcases hcomplete : provider.complete findings s₁ with ⟨result, s₂⟩
          cases result with
          | error e => exact .silent havailable hcomplete
          | ok resp =>
              obtain ⟨data, hjson, hranks⟩ := hreadable resp ⟨s₁, s₂, havailable, hcomplete⟩
              obtain ⟨ai, hread⟩ := exists_assessmentOf_iff.mpr hranks
              exact .replied havailable hcomplete hjson hread

/-- For every provider, every reader of JSON and every list of findings: the
assessment is advice exactly if the provider says whether it is there and its
reply, if it gives one, can be read. -/
theorem advises_iff_readable (loads : String → Except PyError Json) (provider : LLMProvider σ)
    (findings : List UnifiedFinding) (s : σ) :
    Advises loads provider findings s ↔
      findings = [] ∨ (∃ b s', provider.available s = (.ok b, s')) ∧
        ∀ resp, Replies provider findings s resp → Readable loads findings resp := by
  rw [← assessmentReturns_iff]
  constructor
  · rintro ⟨a, s', hrun, -⟩
    exact assessmentReturns_of_ok hrun
  · intro h
    obtain ⟨a, s', hrun⟩ := assess_spec h
    exact ⟨a, s', hrun, advice_of_ok hrun⟩

/-! ## Replies that end a scan -/

/-- The daemon of the model does not answer. -/
def deafProvider : LLMProvider Unit :=
  { demoProvider with available := .raise (.other "connection reset") }

/-- The rank of a finding is written with two signs. -/
def signedReply : Json :=
  .obj [("findings", .arr [.obj [("id", .str "f-1"), ("priority_rank", .str "--1")]])]

def signedProvider : LLMProvider Unit :=
  { demoProvider with
    complete := fun _ ↦ pure ⟨"\x7b\"findings\": [\x7b\"id\": \"f-1\", \"priority_rank\": \"--1\"\x7d]\x7d",
      "m", "ollama"⟩ }

theorem not_advises :
    ¬ Advises (fun _ ↦ .ok signedReply) deafProvider [Findings.demoFinding] () ∧
      ¬ Advises (fun _ ↦ .ok signedReply) signedProvider [Findings.demoFinding] () := by
  constructor
  · rintro ⟨a, s', hrun, -⟩
    rcases assessmentReturns_iff.mp (assessmentReturns_of_ok hrun) with h | ⟨⟨b, s', h⟩, -⟩
    · exact absurd h (List.cons_ne_nil _ _)
    · exact nomatch h
  · rintro ⟨a, s', hrun, -⟩
    rcases assessmentReturns_iff.mp (assessmentReturns_of_ok hrun) with h | ⟨-, h⟩
    · exact absurd h (List.cons_ne_nil _ _)
    · obtain ⟨data, hjson, hranks⟩ := h _ ⟨(), (), rfl, rfl⟩
      obtain rfl : signedReply = data := Except.ok.inj hjson
      have hread := hranks _ rfl _ List.mem_cons_self (by decide) "--1" rfl (by decide)
      exact absurd hread (by decide)

end Vantage.Scan
