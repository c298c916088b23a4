import Rackphone.Filters

/-!
# What the filters decide

A rule that matches is enabled and covers the kind, so the three stages of the search end in one of
four ways, and each says which rules of the list there are. The verdict is then a statement about
the set of the enabled rules. A rule that reads the body of an event without one matches nothing.
-/

namespace Rackphone.Filters

variable {Pattern : Type} (M : PythonMatch Pattern)

section Rule

variable {M} {rule : FilterRule Pattern} {event : Event}

theorem covers_of_matches (h : rule.matchesEvent M event) : rule.coversKind M event.kind := by
  unfold FilterRule.matchesEvent at h
  split_ifs at h with h1 h2 h3 h4
  show (rule.kind.isEmpty || decide (M.lower event.kind ∈ lowered M rule.kind)) = true
  cases hk : rule.kind.isEmpty with
  | true => rfl
  | false => simpa [hk] using h3

theorem matchesBody_of_matches (h : rule.matchesEvent M event) :
    rule.matchesBody M event.body := by
  unfold FilterRule.matchesEvent at h
  split_ifs at h
  exact h

theorem not_matches_of_readsBody (hread : rule.readsBody) (hbody : event.body = none) :
    ¬ rule.matchesEvent M event := by
  intro h
  have hb := matchesBody_of_matches h
  unfold FilterRule.matchesBody at hb
  rw [if_neg (by simpa using hread), hbody] at hb
  exact Bool.false_ne_true hb

theorem FilterRule.Allows.limits (h : rule.Allows M event) : rule.Limits M event :=
  ⟨h.1, h.2.1, covers_of_matches h.2.2⟩

theorem FilterRule.Denies.reads_nothing (h : rule.Denies M event) (hbody : event.body = none) :
    rule.readsBody = false := by
  by_contra hread
  exact not_matches_of_readsBody (by simpa using hread) hbody h.2.2

theorem FilterRule.Allows.reads_nothing (h : rule.Allows M event) (hbody : event.body = none) :
    rule.readsBody = false := by
  by_contra hread
  exact not_matches_of_readsBody (by simpa using hread) hbody h.2.2

end Rule

section Search

variable (event : Event) (rules : List (FilterRule Pattern))

/-- How the search ends, with what is then known of the list. -/
inductive Ending : Bool × Option (FilterRule Pattern) → Prop
  | denied (rule) : rule ∈ rules → rule.Denies M event → Ending (false, some rule)
  | allowed (rule) : (∀ r ∈ rules, ¬ r.Denies M event) → rule ∈ rules → rule.Allows M event →
      Ending (true, some rule)
  | limited (rule) : (∀ r ∈ rules, ¬ r.Denies M event) → (∀ r ∈ rules, ¬ r.Allows M event) →
      rule ∈ rules → rule.Limits M event → Ending (false, some rule)
  | untouched : (∀ r ∈ rules, ¬ r.Denies M event) → (∀ r ∈ rules, ¬ r.Limits M event) →
      Ending (true, none)

theorem ending_shouldPush : Ending M event rules (shouldPush M event rules) := by
  have hactive : ∀ r, r ∈ rules.filter (fun r => r.enabled) ↔ r ∈ rules ∧ r.enabled :=
    fun r => List.mem_filter
  unfold shouldPush
  simp only []
  split
  next deny hdeny =>
    have hm := (hactive deny).1 (List.mem_of_find?_eq_some hdeny)
    have hp := List.find?_some hdeny
    exact .denied deny hm.1 ⟨hm.2, of_decide_eq_true hp⟩
  next hnone =>
    have hdeny : ∀ r ∈ rules, ¬ r.Denies M event := by
      rintro r hr ⟨hon, hd⟩
      exact List.find?_eq_none.1 hnone r ((hactive r).2 ⟨hr, hon⟩) (decide_eq_true hd)
    have happly : ∀ r, r ∈ (rules.filter (fun r => r.enabled)).filter
        (fun r => r.mode = .allow ∧ r.coversKind M event.kind) ↔
        r ∈ rules ∧ r.Limits M event := by
      intro r
      rw [List.mem_filter, hactive, decide_eq_true_iff, and_assoc]
      exact Iff.rfl
    split
    next allow hallow =>
      have hm := (happly allow).1 (List.mem_of_find?_eq_some hallow)
      have hp := List.find?_some hallow
      exact .allowed allow hdeny hm.1 ⟨hm.2.1, hm.2.2.1, hp⟩
    next hnone' =>
      have hallow : ∀ r ∈ rules, ¬ r.Allows M event := fun r hr ha =>
        List.find?_eq_none.1 hnone' r ((happly r).2 ⟨hr, ha.limits⟩) ha.2.2
      split
      next rule rest hcons =>
        have hm := (happly rule).1 (by rw [hcons]; exact List.mem_cons_self)
        exact .limited rule hdeny hallow hm.1 hm.2
      next hnil =>
        refine .untouched hdeny fun r hr hl => ?_
        have := (happly r).2 ⟨hr, hl⟩
        rw [hnil] at this
        exact List.not_mem_nil this

/-- The search refines what is said of the set. -/
theorem suppresses_iff :
    (shouldPush M event rules).1 = false ↔ Silenced M event {rule | rule ∈ rules} := by
  have h := ending_shouldPush M event rules
  generalize shouldPush M event rules = decision at h
  cases h with
  | denied rule hr hd => exact iff_of_true rfl (.inl ⟨rule, hr, hd⟩)
  | allowed rule hdeny hr ha =>
    refine iff_of_false Bool.true_eq_false_eq_False ?_
    rintro (⟨r, hr', hd⟩ | ⟨hnone, -⟩)
    · exact hdeny r hr' hd
    · exact hnone ⟨rule, hr, ha⟩
  | limited rule hdeny hallow hr hl =>
    refine iff_of_true rfl (.inr ⟨?_, rule, hr, hl⟩)
    rintro ⟨r, hr', ha⟩
    exact hallow r hr' ha
  | untouched hdeny hlimit =>
    refine iff_of_false Bool.true_eq_false_eq_False ?_
    rintro (⟨r, hr', hd⟩ | ⟨-, r, hr', hl⟩)
    · exact hdeny r hr' hd
    · exact hlimit r hr' hl

end Search

/-! ## Sets of rules -/

section Sets

variable {M} {event : Event} {rules rules' : Set (FilterRule Pattern)}

theorem silenced_congr (h : ∀ rule, rule.enabled → (rule ∈ rules' ↔ rule ∈ rules)) :
    Silenced M event rules' ↔ Silenced M event rules := by
  have key : ∀ P : FilterRule Pattern → Prop, (∀ r, P r → r.enabled) →
      ((∃ r ∈ rules', P r) ↔ ∃ r ∈ rules, P r) := by
    intro P hP
    constructor
    · rintro ⟨r, hr, hp⟩
      exact ⟨r, (h r (hP r hp)).1 hr, hp⟩
    · rintro ⟨r, hr, hp⟩
      exact ⟨r, (h r (hP r hp)).2 hr, hp⟩
  unfold Silenced
  rw [key _ fun r hr => hr.1, key _ fun r hr => hr.1, key _ fun r hr => hr.1]

theorem Silenced.of_more_denies (hsub : rules ⊆ rules')
    (hdeny : ∀ rule ∈ rules', rule ∉ rules → rule.mode = .deny)
    (h : Silenced M event rules) : Silenced M event rules' := by
  obtain ⟨r, hr, hd⟩ | ⟨hnone, r, hr, hl⟩ := h
  · exact .inl ⟨r, hsub hr, hd⟩
  · refine .inr ⟨?_, r, hsub hr, hl⟩
    rintro ⟨a, ha, hallow⟩
    by_cases hin : a ∈ rules
    · exact hnone ⟨a, hin, hallow⟩
    · have := hdeny a ha hin
      rw [hallow.2.1] at this
      cases this

end Sets

section Verdict

variable (event : Event)

theorem verdict_congr {rules rules' : List (FilterRule Pattern)}
    (h : ∀ rule, rule.enabled → (rule ∈ rules' ↔ rule ∈ rules)) :
    (shouldPush M event rules').1 = (shouldPush M event rules).1 := by
  rw [Bool.eq_iff_iff, ← not_iff_not, Bool.not_eq_true, Bool.not_eq_true, suppresses_iff,
    suppresses_iff]
  exact silenced_congr h

theorem decided_by {rules : List (FilterRule Pattern)} {rule : FilterRule Pattern}
    (h : (shouldPush M event rules).2 = some rule) :
    rule ∈ rules ∧ rule.enabled ∧ (rule.mode = .deny → rule.matchesEvent M event) := by
  have hend := ending_shouldPush M event rules
  generalize shouldPush M event rules = decision at h hend
  cases hend with
  | denied r hr hd =>
    cases h
    exact ⟨hr, hd.1, fun _ => hd.2.2⟩
  | allowed r _ hr ha =>
    cases h
    exact ⟨hr, ha.1, fun _ => ha.2.2⟩
  | limited r _ _ hr hl =>
    cases h
    refine ⟨hr, hl.1, fun hmode => ?_⟩
    rw [hl.2.1] at hmode
    cases hmode
  | untouched => cases h

theorem verdict_of_set (rules : List (FilterRule Pattern)) :
    ((shouldPush M event rules).1 = false ↔
      (∃ rule ∈ rules, rule.enabled ∧ rule.mode = .deny ∧ rule.matchesEvent M event)
        ∨ (¬ ∃ rule ∈ rules, rule.enabled ∧ rule.mode = .allow ∧ rule.matchesEvent M event)
          ∧ ∃ rule ∈ rules, rule.enabled ∧ rule.mode = .allow ∧ rule.coversKind M event.kind)
    ∧ (∀ rules', rules'.Perm rules →
      (shouldPush M event rules').1 = (shouldPush M event rules).1)
    ∧ (∀ rules', rules'.Sublist rules → (∀ rule ∈ rules, rule.enabled → rule ∈ rules') →
      (shouldPush M event rules').1 = (shouldPush M event rules).1)
    ∧ (∀ front deny back, rules = front ++ back → deny.mode = .deny →
      (shouldPush M event rules).1 = false →
      (shouldPush M event (front ++ deny :: back)).1 = false)
    ∧ ∀ rule, (shouldPush M event rules).2 = some rule →
      rule ∈ rules ∧ rule.enabled ∧ (rule.mode = .deny → rule.matchesEvent M event) := by
  refine ⟨suppresses_iff M event rules, ?_, ?_, ?_, fun rule => decided_by M event⟩
  · intro rules' hperm
    exact verdict_congr M event fun rule _ => hperm.mem_iff
  · intro rules' hsub hkeep
    exact verdict_congr M event fun rule hon => ⟨fun h => hsub.subset h, fun h => hkeep rule h hon⟩
  · rintro front deny back rfl hmode hsup
    rw [suppresses_iff] at hsup ⊢
    refine hsup.of_more_denies (fun r hr => ?_) fun r hr hnew => ?_
    · obtain hf | hb := List.mem_append.1 hr
      · exact List.mem_append_left _ hf
      · exact List.mem_append_right _ (List.mem_cons_of_mem _ hb)
    · obtain hf | hb := List.mem_append.1 hr
      · exact absurd (List.mem_append_left _ hf) hnew
      · obtain rfl | hb := List.mem_cons.1 hb
        · exact hmode
        · exact absurd (List.mem_append_right _ hb) hnew

end Verdict

/-! ## Events without a body -/

section NoBody

variable {event : Event} {rules : List (FilterRule Pattern)}

theorem mem_bodyless (rule : FilterRule Pattern) :
    rule ∈ rules.filter (fun r => !r.readsBody) ↔ rule ∈ rules ∧ rule.readsBody = false := by
  rw [List.mem_filter, Bool.not_eq_true']

/-- What reads the body matters to an event without one through the kinds it covers alone. -/
theorem silenced_no_body (hbody : event.body = none) :
    Silenced M event {rule | rule ∈ rules} ↔
      Silenced M event {rule | rule ∈ rules.filter fun r => !r.readsBody}
        ∨ (¬ ∃ rule ∈ rules, rule.Allows M event)
          ∧ ∃ rule ∈ rules, rule.readsBody ∧ rule.Limits M event := by
  have hmem : ∀ r, r ∈ rules.filter (fun r => !r.readsBody) ↔ r ∈ rules ∧ r.readsBody = false :=
    mem_bodyless
  constructor
  · rintro (⟨r, hr, hd⟩ | ⟨hnone, r, hr, hl⟩)
    · exact .inl (.inl ⟨r, (hmem r).2 ⟨hr, hd.reads_nothing hbody⟩, hd⟩)
    · cases hread : r.readsBody with
      | true => exact .inr ⟨hnone, r, hr, hread, hl⟩
      | false =>
        refine .inl (.inr ⟨?_, r, (hmem r).2 ⟨hr, hread⟩, hl⟩)
        rintro ⟨a, ha, hallow⟩
        exact hnone ⟨a, ((hmem a).1 ha).1, hallow⟩
  · rintro ((⟨r, hr, hd⟩ | ⟨hnone, r, hr, hl⟩) | ⟨hnone, r, hr, -, hl⟩)
    · exact .inl ⟨r, ((hmem r).1 hr).1, hd⟩
    · refine .inr ⟨?_, r, ((hmem r).1 hr).1, hl⟩
      rintro ⟨a, ha, hallow⟩
      exact hnone ⟨a, (hmem a).2 ⟨ha, hallow.reads_nothing hbody⟩, hallow⟩
    · exact .inr ⟨hnone, r, hr, hl⟩

theorem announces_iff (hbody : event.body = none) :
    ((shouldPush M event (rules.filter fun rule => !rule.readsBody)).1 = true →
        (shouldPush M event rules).1 = true) ↔
      (¬ ∃ rule ∈ rules, rule.enabled ∧ rule.mode = .allow ∧ rule.coversKind M event.kind
          ∧ rule.readsBody)
        ∨ (∃ rule ∈ rules, rule.enabled ∧ rule.mode = .allow ∧ rule.coversKind M event.kind
          ∧ rule.readsBody = false)
        ∨ ∃ rule ∈ rules, rule.enabled ∧ rule.mode = .deny ∧ rule.matchesEvent M event := by
  rw [← not_imp_not, Bool.not_eq_true, Bool.not_eq_true, suppresses_iff, suppresses_iff]
  constructor
  · intro h
    by_contra hcon
    obtain ⟨hread, hcover, hdeny⟩ : _ ∧ _ ∧ _ := by simpa only [not_or, not_not] using hcon
    obtain ⟨r, hr, hon, hmode, hkind, -⟩ := hread
    have hnone : ¬ ∃ rule ∈ rules, rule.Allows M event := fun ⟨a, ha, hallow⟩ =>
      hcover ⟨a, ha, hallow.1, hallow.2.1, hallow.limits.2.2, hallow.reads_nothing hbody⟩
    obtain ⟨d, hd, hdenies⟩ | ⟨-, l, hl, hlimits⟩ := h (.inr ⟨hnone, r, hr, hon, hmode, hkind⟩)
    · exact hdeny ⟨d, ((mem_bodyless d).1 hd).1, hdenies⟩
    · have hin := (mem_bodyless l).1 hl
      exact hcover ⟨l, hin.1, hlimits.1, hlimits.2.1, hlimits.2.2, hin.2⟩
  · intro hcond hsil
    obtain h | ⟨hnone, r, hr, hread, hlimits⟩ := (silenced_no_body M hbody).1 hsil
    · exact h
    obtain hread' | ⟨l, hl, hon, hmode, hkind, hfree⟩ | ⟨d, hd, hdenies⟩ := hcond
    · exact absurd ⟨r, hr, hlimits.1, hlimits.2.1, hlimits.2.2, hread⟩ hread'
    · refine .inr ⟨?_, l, (mem_bodyless l).2 ⟨hl, hfree⟩, hon, hmode, hkind⟩
      rintro ⟨a, ha, hallow⟩
      exact hnone ⟨a, ((mem_bodyless a).1 ha).1, hallow⟩
    · have hdenies : d.Denies M event := hdenies
      exact .inl ⟨d, (mem_bodyless d).2 ⟨hd, hdenies.reads_nothing hbody⟩, hdenies⟩

end NoBody

section CodeRule

/-- What the rules below need: they are ASCII, without a glob or a regular expression. -/
def asciiMatch : PythonMatch Empty where
  lower := String.toLower
  fnmatchcase name pattern := name == pattern
  search pattern _ := pattern.elim

def smsWithoutBody : Event where
  unit := "phone"
  kind := "sms"
  sourceId := 1
  address := some "bank"
  body := none
  timestamp := none
  direction := none
  duration := none
  raw := "{}"

def codeRule : FilterRule Empty where
  name := "codes"
  mode := .allow
  unit := []
  kind := ["sms"]
  sender := []
  contains := ["code"]
  patterns := []
  enabled := true

theorem unread_rule_silences :
    ¬ ((shouldPush asciiMatch smsWithoutBody ([codeRule].filter fun rule => !rule.readsBody)).1
        = true → (shouldPush asciiMatch smsWithoutBody [codeRule]).1 = true) := by
  decide +kernel

theorem code_deny_announces :
    (shouldPush asciiMatch smsWithoutBody [{ codeRule with mode := .deny }]).1 = true :=
  (announces_iff asciiMatch rfl).2 (.inl (by decide)) (by decide +kernel)

end CodeRule

/-! ## The rules of the event stream -/

theorem shouldPush_view (event : Event) (rules : List (FilterRule Pattern)) :
    Rackphone.shouldPush event (rules.map (FilterRule.view M)) =
      ((shouldPush M event rules).1, (shouldPush M event rules).2.map (FilterRule.view M)) := by
  have hactive : (rules.map (FilterRule.view M)).filter (fun r => r.enabled) =
      (rules.filter fun r => r.enabled).map (FilterRule.view M) := List.filter_map
  unfold Rackphone.shouldPush shouldPush
  simp only [hactive]
  generalize rules.filter (fun r => r.enabled) = active
  have hdeny : (active.map (FilterRule.view M)).find?
        (fun r => r.mode = .deny ∧ r.matchesEvent event) =
      (active.find? fun r => r.mode = .deny ∧ r.matchesEvent M event).map (FilterRule.view M) :=
    List.find?_map ..
  have happly : (active.map (FilterRule.view M)).filter
        (fun r => r.mode = .allow ∧ r.coversKind event.kind) =
      (active.filter fun r => r.mode = .allow ∧ r.coversKind M event.kind).map
        (FilterRule.view M) := List.filter_map
  rw [hdeny, happly]
  cases active.find? fun r => r.mode = .deny ∧ r.matchesEvent M event with
  | some deny => rfl
  | none =>
    simp only [Option.map_none]
    generalize active.filter (fun r => r.mode = .allow ∧ r.coversKind M event.kind) = applicable
    have hallow : (applicable.map (FilterRule.view M)).find? (fun r => r.matchesEvent event) =
        (applicable.find? fun r => r.matchesEvent M event).map (FilterRule.view M) :=
      List.find?_map ..
    rw [hallow]
    cases applicable.find? fun r => r.matchesEvent M event with
    | some allow => rfl
    | none => cases applicable <;> rfl

end Rackphone.Filters
