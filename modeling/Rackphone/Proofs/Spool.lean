import Rackphone.Lib.JsonPieces
import Rackphone.Spool

/-!
# The spool reads back where no text breaks a line

A line of the spool is printable, so the gateway breaks it only at U+0085, U+2028 or U+2029 and
only inside a text of the event. Unbroken lines read back as their events. Of a broken line the
first piece is no JSON, and a later piece starts inside a string, so no piece gives an event.
-/

namespace Rackphone

open Json (Value Scalar codes lookup members Tame Cut Inside Follows IsKey)

theorem Spooled.keys_fields (x : Spooled) :
    (∀ f ∈ x.fields, IsKey f.1) ∧ (x.fields.map Prod.fst).Nodup := by
  have hkey : ∀ k : String, (k.toList.head?.any Char.isLower
      && k.toList.all fun c => 0x20 ≤ c.toNat && c.toNat < 0x80) = true → IsKey k := by
    intro k hk
    simp only [Bool.and_eq_true, List.all_eq_true, decide_eq_true_eq] at hk
    refine ⟨?_, hk.2⟩
    rcases h : k.toList with _ | ⟨c, q⟩
    · simp [h] at hk
    · exact ⟨c, q, rfl, by simpa [h] using hk.1⟩
  have hall : ∀ ks : List String, (ks.all fun k => k.toList.head?.any Char.isLower
      && k.toList.all fun c => 0x20 ≤ c.toNat && c.toNat < 0x80) = true →
      x.fields.map Prod.fst = ks → ∀ f ∈ x.fields, IsKey f.1 := by
    rintro ks hks rfl f hf
    exact hkey _ (List.all_eq_true.1 hks _ (List.mem_map_of_mem hf))
  obtain ⟨id, e⟩ := x
  cases e with
  | sms => exact ⟨hall ["kind", "address", "ts", "direction", "sub", "body", "id"] (by decide) rfl,
      (by decide : ["kind", "address", "ts", "direction", "sub", "body", "id"].Nodup)⟩
  | notification => exact ⟨hall ["kind", "address", "app", "title", "ts", "body", "id"] (by decide)
      rfl, (by decide : ["kind", "address", "app", "title", "ts", "body", "id"].Nodup)⟩
  | ringing => exact ⟨hall ["kind", "address", "ts", "direction", "call_id", "sub", "id"]
      (by decide) rfl,
      (by decide : ["kind", "address", "ts", "direction", "call_id", "sub", "id"].Nodup)⟩
  | finished => exact ⟨hall ["kind", "address", "ts", "direction", "duration", "call_id", "sub",
      "id"] (by decide) rfl, (by decide : ["kind", "address", "ts", "direction", "duration",
        "call_id", "sub", "id"].Nodup)⟩
  | outgoing => exact ⟨hall ["kind", "address", "ts", "direction", "duration", "sub", "id"]
      (by decide) rfl,
      (by decide : ["kind", "address", "ts", "direction", "duration", "sub", "id"].Nodup)⟩

/-! ## Characters -/

theorem isLineBreak_of_le {c : Char} (h : 0x20 ≤ c.toNat) :
    isLineBreak c = true ↔ c.toNat = 0x85 ∨ c.toNat = 0x2028 ∨ c.toNat = 0x2029 := by
  simp only [isLineBreak, List.mem_cons, List.not_mem_nil, or_false, decide_eq_true_eq]
  omega

theorem toNat_isDigit {c : Char} (h : c.isDigit = true) : 0x30 ≤ c.toNat ∧ c.toNat ≤ 0x39 := by
  simp only [Char.isDigit, Bool.and_eq_true, decide_eq_true_eq] at h
  exact ⟨UInt32.le_iff_toNat_le.1 h.1, UInt32.le_iff_toNat_le.1 h.2⟩

theorem inert_of_isBlank {c : Char} (h : isBlank c = true) : Json.Reader.Inert c := by
  simp only [isBlank, List.mem_cons, List.not_mem_nil, or_false, decide_eq_true_eq,
    Bool.decide_or, Bool.decide_and, Bool.or_eq_true, Bool.and_eq_true] at h
  refine Json.Reader.inert_of_toNat ?_ ?_
  · simp only [List.mem_cons, List.not_mem_nil, or_false]
    omega
  · by_contra hd
    have := toNat_isDigit (by simpa using hd)
    omega

theorem inert_of_large {c : Char} (h : 0x80 ≤ c.toNat) :
    Json.Reader.Inert c ∧ Json.Reader.isSpace c = false := by
  refine ⟨Json.Reader.inert_of_toNat ?_ ?_, ?_⟩
  · simp only [List.mem_cons, List.not_mem_nil, or_false]
    omega
  · by_contra hd
    have := toNat_isDigit (by simpa using hd)
    omega
  · have hne : ∀ d : Char, d.toNat < 0x80 → c ≠ d := by
      rintro d hd rfl
      omega
    simp [Json.Reader.isSpace, hne ' ' (by decide), hne '\t' (by decide), hne '\n' (by decide),
      hne '\r' (by decide)]

theorem isBlank_of_isLower {k : Char} (hk : k.isLower = true) : isBlank k = false := by
  have hlt := Json.toNat_lt_of_isLower hk
  have hle : 0x61 ≤ k.toNat := by
    simp only [Char.isLower, Bool.and_eq_true, decide_eq_true_eq] at hk
    exact UInt32.le_iff_toNat_le.1 hk.1
  simp only [isBlank, List.mem_cons, List.not_mem_nil, or_false, decide_eq_false_iff_not]
  omega

/-! ## Lines -/

theorem Spooled.line_eq (x : Spooled) :
    x.line = '{' :: (Json.printFields orgJson x.fields ++ ['}']) := rfl

theorem Spooled.le_of_mem_line {x : Spooled} {c : Char} (h : c ∈ x.line) : 0x20 ≤ c.toNat :=
  (Json.mem_printObject x.keys_fields.1 h).1

theorem Spooled.follows_line (x : Spooled) : Follows orgJson x.line := by
  have hfields : Follows orgJson (Json.printFields orgJson x.fields ++ ['}']) :=
    Json.follows_printFields rfl x.event.fields x.keys_fields.1
  exact hfields.ascii_append (a := ['{']) (by simp)

theorem mem_texts {x : Spooled} {s : String} :
    s ∈ x.texts ↔ ∃ f ∈ x.fields, f.2 = .str s := by
  simp only [Spooled.texts, List.mem_filterMap]
  refine exists_congr fun f => and_congr_right fun _ => ?_
  rcases f.2 with _ | n | t <;> simp

/-- A line breaks for the gateway where a text of the event does. -/
theorem unbroken_iff {x : Spooled} : Unbroken x ↔ ∀ c ∈ x.line, isLineBreak c = false := by
  constructor
  · intro h c hc
    obtain ⟨hle, hc⟩ := Json.mem_printObject x.keys_fields.1 hc
    by_contra hb
    have hb := (isLineBreak_of_le hle).1 (by simpa using hb)
    rcases hc with hc | ⟨f, hf, s, hs, hc⟩
    · omega
    · have := h s (mem_texts.2 ⟨f, hf, hs⟩) c hc
      omega
  · intro h s hs c hc
    obtain ⟨f, hf, hs⟩ := mem_texts.1 hs
    by_contra hn
    have hbrk : c.toNat = 0x85 ∨ c.toNat = 0x2028 ∨ c.toNat = 0x2029 := by omega
    have hmem : c ∈ x.line := Json.mem_printObject_of_mem hf hs hc (by omega)
    have := h c hmem
    rw [(isLineBreak_of_le (by omega)).2 hbrk] at this
    exact absurd this (by decide)

theorem loads_line (x : Spooled) :
    Json.loads (Lines.strip isBlank x.line) = some (.obj (members x.fields)) := by
  rw [x.line_eq, Lines.strip_eq_self (by decide) (by decide)]
  exact Json.loads_printObject orgJson x.keys_fields.2

variable (B : Builtins) (unit : String)

theorem get_fields (x : Spooled) :
    get "kind" (members x.fields) = .str (key x.event.kind)
      ∧ get "id" (members x.fields) = .int x.id
      ∧ get "address" (members x.fields) = .str (key x.event.address)
      ∧ get "body" (members x.fields) = (x.event.body.map fun s => Value.str (key s)).getD .null
      ∧ get "ts" (members x.fields) = .int x.event.ts
      ∧ get "direction" (members x.fields)
        = (x.event.direction.map fun s => Value.str (key s)).getD .null
      ∧ get "duration" (members x.fields) = (x.event.duration.map Value.int).getD .null := by
  have hget : ∀ k, get k (members x.fields)
      = ((x.fields.find? fun f => f.1 = k).map fun f => f.2.toValue).getD .null := fun k => by
    rw [get, key, Json.lookup_members]
  simp only [hget]
  have hbody : ∀ b : Option String, (DeviceEvent.bodyField b).toValue
      = (b.map fun s => Value.str (key s)).getD .null := by
    rintro (_ | s) <;> rfl
  obtain ⟨id, e⟩ := x
  cases e with
  | sms address ts sub body =>
    exact ⟨rfl, rfl, rfl, hbody body, rfl, rfl, rfl⟩
  | notification package app title ts body =>
    exact ⟨rfl, rfl, rfl, hbody body, rfl, rfl, rfl⟩
  | ringing => exact ⟨rfl, rfl, rfl, rfl, rfl, rfl, rfl⟩
  | finished => exact ⟨rfl, rfl, rfl, rfl, rfl, rfl, rfl⟩
  | outgoing => exact ⟨rfl, rfl, rfl, rfl, rfl, rfl, rfl⟩

theorem contains_fields (x : Spooled) :
    contains "kind" (.obj (members x.fields)) = .ok true
      ∧ contains "id" (.obj (members x.fields)) = .ok true := by
  have hhas : ∀ k, contains k (.obj (members x.fields))
      = .ok (x.fields.find? fun f => f.1 = k).isSome := fun k => by
    rw [contains, key, Json.lookup_members, Option.isSome_map]
  simp only [hhas]
  obtain ⟨id, e⟩ := x
  cases e <;> exact ⟨rfl, rfl⟩

theorem eventOf_fields (x : Spooled) :
    eventOf B unit (.obj (members x.fields)) = .ok (x.parsed unit) := by
  obtain ⟨hkind, hid, haddress, hbody, hts, hdirection, hduration⟩ := get_fields x
  simp only [eventOf, hkind, hid, haddress, hbody, hts, hdirection, hduration, B.str_str, B.int_int]
  rfl

theorem fromSpoolLine_line (x : Spooled) :
    fromSpoolLine B unit x.line = .ok (some (x.parsed unit)) := by
  have hne : Lines.strip isBlank x.line ≠ [] := by
    rw [x.line_eq, Lines.strip_eq_self (by decide) (by decide)]
    simp
  simp only [fromSpoolLine, if_neg hne, loads_line, contains_fields, eventOf_fields]
  rfl

/-! ## Broken lines -/

/-- The line gives no event, if it does not raise. -/
def Silent (line : List Char) : Prop := ∀ e, fromSpoolLine B unit line = .ok e → e = none

theorem silent_of_loads {line : List Char}
    (h : ∀ v, Json.loads (Lines.strip isBlank line) = some v → Tame v) : Silent B unit line := by
  intro e he
  unfold fromSpoolLine at he
  simp only [] at he
  split_ifs at he with hblank
  · exact (Except.ok.inj he).symm
  · rcases hv : Json.loads (Lines.strip isBlank line) with _ | v <;> simp only [hv] at he
    · exact (Except.ok.inj he).symm
    · have hno : contains "kind" v = .ok false ∨ eventOf B unit v = .error .typeError := by
        cases v with
        | obj fs =>
          cases fs with
          | nil => exact .inl rfl
          | cons f fs => exact absurd rfl (h _ hv f fs)
        | _ => exact .inr rfl
      rcases hk : contains "kind" v with _ | k
      · simp [hk, bind, Except.bind] at he
      rcases hi : contains "id" v with _ | i
      · cases k <;> simp [hk, hi, bind, Except.bind, pure, Except.pure] at he
        exact he.symm
      rcases hno with hno | hno
      · obtain rfl := Except.ok.inj (hk.symm.trans hno)
        simp [hk, bind, Except.bind, pure, Except.pure] at he
        exact he.symm
      · cases k <;> cases i <;>
          simp [hk, hi, hno, bind, Except.bind, pure, Except.pure] at he <;> exact he.symm

theorem Cut.strip {t : List Char} (h : Cut t) : Cut (Lines.strip isBlank t) := by
  have hsub : ∀ {p : List Char}, Json.NoQuote p → Json.NoQuote (p.dropWhile isBlank) :=
    fun hp c hc => hp c ((List.dropWhile_sublist _).subset hc)
  rcases h with h | ⟨p, q, rfl, hp⟩ | ⟨p, k, q, rfl, hp, hk⟩
  · refine .inl fun c hc => h c ?_
    exact (List.dropWhile_sublist _).subset ((List.rdropWhile_prefix _ _).subset hc)
  · rw [Lines.strip_append_cons (by decide)]
    exact .inr (.inl ⟨_, _, rfl, hsub hp⟩)
  · have hq : ([',', '"'] ++ k :: q).rdropWhile isBlank = [',', '"'] ++ k :: q.rdropWhile isBlank :=
      Lines.rdropWhile_append_cons (isBlank_of_isLower hk)
    simp only [List.cons_append, List.nil_append] at hq
    rw [Lines.strip_append_cons (by decide), hq]
    exact .inr (.inr ⟨_, k, _, rfl, hsub hp, hk⟩)

theorem silent_of_cut {line : List Char} (h : Cut line) : Silent B unit line :=
  silent_of_loads B unit fun _ => (Cut.strip h).tame

/-- A text that starts inside a string breaks into pieces that give nothing. -/
theorem split_inside {sty : Json.Style} (t : List Char) : ∀ (n : ℕ) (v : List Char), v.length ≤ n →
    Inside sty v → Follows sty v → (∀ c ∈ v, 0x20 ≤ c.toNat) →
      ∃ ps, Lines.split isLineBreak (v ++ '\n' :: t) = ps ++ Lines.split isLineBreak t
        ∧ ∀ p ∈ ps, Cut p := by
  intro n
  -- past a break the text starts inside a string again, and it is shorter
  induction n with
  | zero =>
    intro v hv hin
    obtain ⟨s, k, q, rfl, -⟩ := hin
    simp at hv
  | succ n ih =>
    intro v hv hin hfol hle
    obtain ⟨l, m, rfl, hl, rfl | ⟨b, q, rfl, hb⟩⟩ := Lines.exists_first_break isLineBreak v
    · rw [List.append_nil] at hin ⊢
      refine ⟨[l], Lines.split_break hl (by decide) (by decide), fun p hp => ?_⟩
      rw [List.mem_singleton.1 hp]
      exact hin.cut (List.append_nil l).symm (by simp)
    · have hb80 : 0x80 ≤ b.toNat := by
        have := (isLineBreak_of_le (hle b (by simp))).1 hb
        omega
      have hfolq : Follows sty q := fun a c r h => hfol (l ++ b :: a) c r (by simp [h])
      obtain ⟨ps, hps, hcut⟩ := ih q (by simp at hv; omega) (hfol l b q rfl hb80) hfolq
        fun c hc => hle c (by simp [hc])
      refine ⟨l :: ps, ?_, List.forall_mem_cons.2 ⟨hin.cut rfl ?_, hcut⟩⟩
      · rw [List.append_assoc, List.cons_append, Lines.split_break hl hb, hps, List.cons_append]
        rintro rfl
        exact absurd hb80 (by decide)
      · simpa using hb80

/-- The pieces of a broken line. -/
theorem split_broken {x : Spooled} (hx : ¬ Unbroken x) (t : List Char) :
    ∃ ps, Lines.split isLineBreak (x.line ++ '\n' :: t) = ps ++ Lines.split isLineBreak t
      ∧ ∀ p ∈ ps, Silent B unit p := by
  obtain ⟨l, m, hline, hl, rfl | ⟨b, q, rfl, hb⟩⟩ := Lines.exists_first_break isLineBreak x.line
  · rw [List.append_nil] at hline
    exact absurd (unbroken_iff.2 (hline ▸ hl)) hx
  have hle : ∀ c ∈ l ++ b :: q, 0x20 ≤ c.toNat := fun c hc =>
    Spooled.le_of_mem_line (hline ▸ hc)
  have hb80 : 0x80 ≤ b.toNat := by
    have := (isLineBreak_of_le (hle b (by simp))).1 hb
    omega
  have hfolq : Follows orgJson q := fun a c r h =>
    x.follows_line (l ++ b :: a) c r (by simp [hline, h])
  obtain ⟨ps, hps, hcut⟩ := split_inside t q.length q le_rfl
    (x.follows_line l b q hline hb80) hfolq fun c hc => hle c (by simp [hc])
  refine ⟨l :: ps, ?_, List.forall_mem_cons.2 ⟨?_, fun p hp => silent_of_cut B unit (hcut p hp)⟩⟩
  · rw [hline, List.append_assoc, List.cons_append, Lines.split_break hl hb, hps, List.cons_append]
    rintro rfl
    exact absurd hb80 (by decide)
  · -- the first piece is an object that is not closed
    have hnone : Json.loads (Lines.strip isBlank l) = none := by
      rcases l with _ | ⟨c, l⟩
      · rfl
      obtain ⟨rfl, -⟩ := List.cons.inj (x.line_eq.symm.trans hline)
      have hstrip : Lines.strip isBlank ('{' :: l) = '{' :: l.rdropWhile isBlank :=
        Lines.strip_append_cons (a := []) (by decide)
      have hrun := Json.run_printObject orgJson x.keys_fields.2
      have hcut : Json.printObject orgJson x.fields = '{' :: l.rdropWhile isBlank
          ++ (l.rtakeWhile isBlank ++ b :: q) := by
        rw [List.cons_append, ← List.append_assoc, List.rdropWhile_append_rtakeWhile]
        exact hline
      rw [hcut] at hrun
      rw [hstrip]
      exact Json.loads_eq_none_of_run hrun
        (fun c hc => inert_of_isBlank (List.mem_rtakeWhile_imp hc)) (inert_of_large hb80).1
        (inert_of_large hb80).2
    exact silent_of_loads B unit fun v hv => absurd hv (by simp [hnone])

/-! ## The whole text -/

theorem parseLines_cons (line : List Char) (lines : List (List Char)) :
    parseLines B unit (line :: lines) = (fromSpoolLine B unit line).bind fun e =>
      (parseLines B unit lines).bind fun es => .ok (e.toList ++ es) := rfl

theorem parseLines_silent {rest : List (List Char)} {es : List ParsedEvent} :
    ∀ {ls : List (List Char)}, (∀ l ∈ ls, Silent B unit l) →
      parseLines B unit (ls ++ rest) = .ok es → parseLines B unit rest = .ok es
  | [], _, h => h
  | l :: ls, hs, h => by
    obtain ⟨hl, hs⟩ := List.forall_mem_cons.1 hs
    rw [List.cons_append, parseLines_cons] at h
    rcases he : fromSpoolLine B unit l with _ | e
    · simp [he, Except.bind] at h
    rcases hes : parseLines B unit (ls ++ rest) with _ | es'
    · simp [he, hes, Except.bind] at h
    · obtain rfl := hl e he
      simp only [he, hes, Except.bind, Option.toList_none, List.nil_append] at h
      exact parseLines_silent hs (hes.trans h)

theorem parseLines_filter : ∀ lines : List (List Char),
    parseLines B unit (lines.filter fun line => Lines.strip isBlank line ≠ [])
      = parseLines B unit lines
  | [] => rfl
  | line :: lines => by
    have ih := parseLines_filter lines
    by_cases h : Lines.strip isBlank line = []
    · have hl : fromSpoolLine B unit line = .ok none := by simp [fromSpoolLine, h]
      rw [List.filter_cons_of_neg (by simp [h]), ih, parseLines_cons, hl]
      rcases parseLines B unit lines <;> rfl
    · rw [List.filter_cons_of_pos (by simp [h]), parseLines_cons, parseLines_cons, ih]

theorem parseLines_lines : ∀ xs : List Spooled,
    parseLines B unit (xs.map Spooled.line) = .ok (xs.map (Spooled.parsed unit))
  | [] => rfl
  | x :: xs => by
    rw [List.map_cons, parseLines_cons, fromSpoolLine_line, parseLines_lines xs]
    rfl

/-- Whatever reads back is the unbroken events. -/
theorem parseLines_text {es : List ParsedEvent} : ∀ {xs : List Spooled},
    parseLines B unit (Lines.split isLineBreak (spoolText xs)) = .ok es →
      es = (xs.filter fun x => Unbroken x).map (Spooled.parsed unit)
  | [], h => (Except.ok.inj h).symm
  | x :: xs, h => by
    have htext : spoolText (x :: xs) = x.line ++ '\n' :: spoolText xs := by
      simp [spoolText]
    rw [htext] at h
    by_cases hx : Unbroken x
    · rw [Lines.split_break (unbroken_iff.1 hx) (by decide) (by decide), parseLines_cons,
        fromSpoolLine_line] at h
      rcases hes : parseLines B unit (Lines.split isLineBreak (spoolText xs)) with _ | es'
      · simp [hes, Except.bind] at h
      · simp only [hes, Except.bind, Option.toList_some, List.singleton_append] at h
        rw [List.filter_cons_of_pos (by simpa using hx), List.map_cons, ← parseLines_text hes]
        exact (Except.ok.inj h).symm
    · obtain ⟨ps, hps, hsilent⟩ := split_broken B unit hx (spoolText xs)
      rw [hps] at h
      rw [List.filter_cons_of_neg (by simpa using hx)]
      exact parseLines_text (parseLines_silent B unit hsilent h)

theorem drainEvents_spoolText (xs : List Spooled) :
    drainEvents B unit (spoolText xs) = .ok (xs.map (Spooled.parsed unit))
      ↔ ∀ x ∈ xs, Unbroken x := by
  rw [drainEvents, parseLines_filter]
  constructor
  · intro h x hx
    have hlen := congrArg List.length (parseLines_text B unit h)
    rw [List.length_map, List.length_map] at hlen
    simpa using List.length_filter_eq_length_iff.1 hlen.symm x hx
  · intro h
    rw [spoolText, Lines.split_flatMap (by decide) fun x hx => unbroken_iff.1 (h x hx)]
    exact parseLines_lines B unit xs

/-! ## The file -/

theorem readLines_spoolText (xs : List Spooled) :
    readLines (spoolText xs) = xs.map Spooled.line := by
  refine Lines.split_flatMap (by decide) fun x _ c hc => ?_
  have hle := Spooled.le_of_mem_line hc
  have hn : c ≠ '\n' := by
    rintro rfl
    exact absurd hle (by decide)
  have hr : c ≠ '\r' := by
    rintro rfl
    exact absurd hle (by decide)
  simp [hn, hr]

/-- A record leaves in the file the events it leaves in the spool. -/
theorem recordText_spoolText (cap : ℕ+) (xs : List Spooled) (x : Spooled) :
    recordText cap (spoolText xs) x
      = spoolText ((xs ++ [x]).drop ((xs ++ [x]).length - cap)) := by
  have htext : spoolText xs ++ (x.line ++ ['\n']) = spoolText (xs ++ [x]) := by
    simp [spoolText]
  unfold recordText
  simp only [htext, readLines_spoolText, List.length_map]
  split_ifs with h
  · rw [Nat.sub_eq_zero_of_le h, List.drop_zero]
  · have hcap := cap.pos
    rw [← List.map_drop, Lines.intercalate_append]
    · rfl
    · rw [ne_eq, List.drop_eq_nil_iff]
      omega

theorem spoolFile_eq (records : List (ℕ+ × Spooled)) :
    spoolFile records = spoolText (spoolEvents records) := by
  unfold spoolFile spoolEvents
  have h : ∀ (b : Inbox), records.foldl (fun file r => recordText r.1 file r.2)
      (spoolText (b.spool.getD []))
        = spoolText ((records.foldl (fun b r => b.append r.1 r.2) b).spool.getD []) := by
    induction records with
    | nil => exact fun _ => rfl
    | cons r records ih =>
      intro b
      rw [List.foldl_cons, List.foldl_cons, ← ih, recordText_spoolText]
      rfl
  exact h Inbox.fresh

/-- What the gateway takes from the spool's file is the spool's events, all of them and in order,
exactly when no text of theirs holds U+0085, U+2028 or U+2029. -/
theorem drainEvents_spoolFile_iff (records : List (ℕ+ × Spooled)) :
    drainEvents B unit (spoolFile records)
        = .ok ((spoolEvents records).map (Spooled.parsed unit))
      ↔ ∀ x ∈ spoolEvents records, Unbroken x := by
  rw [spoolFile_eq]
  exact drainEvents_spoolText B unit (spoolEvents records)

/-- `str` and `int` where they leave a value as it is. -/
def plainBuiltins : Builtins where
  str
    | .str s => .ok s
    | _ => .error .conversion
  int
    | .int n => .ok n
    | _ => .error .conversion
  str_str _ := rfl
  int_int _ := rfl

/-- A message of two paragraphs, with U+2029 between them. -/
def twoParagraphs : Spooled :=
  ⟨1700000000, .sms "+15550100" 1700000000000 0 (some "one\u2029two")⟩

theorem twoParagraphs_lost :
    ¬ ∀ (B : Builtins) (unit : String) (records : List (ℕ+ × Spooled)),
      drainEvents B unit (spoolFile records)
        = .ok ((spoolEvents records).map (Spooled.parsed unit)) := by
  intro h
  have hread : (drainEvents plainBuiltins "lisa01" (spoolFile [(2000, twoParagraphs)])).toOption.map
      List.length = some 0 := by decide +kernel
  rw [h] at hread
  exact absurd hread (by decide)

end Rackphone
