import Rackphone.DrainUnit
import Rackphone.Proofs.Spool

/-!
# A batch is drained exactly when each of its lines is harmless

`from_spool_line` skips what is no JSON and objects without the keys; it raises on everything else
that is no object, and what it passes on may still be refused by `sqlite3`. One refusal ends the
whole drain before the ack.
-/

namespace Rackphone

open Json (Value lookup IsText)
open Fallible

/-! ## Binding -/

theorem succeeds_bindInt {n : ℤ} : Succeeds (bindInt n) ↔ Has64Bits n := by
  unfold bindInt
  split_ifs with h <;> simp [h]

theorem succeeds_bindText {s : List ℕ} : Succeeds (bindText s) ↔ IsText s := by
  rw [← Json.isSome_text]
  unfold bindText
  split <;> simp [*]

theorem succeeds_bindValue {v : Value} : Succeeds (bindValue v) ↔ Bindable v := by
  cases v with
  | null | bool | float | arr | obj => simp [bindValue, Bindable]
  | int n => simp [bindValue, Bindable, succeeds_bindInt]
  | str s => simp [bindValue, Bindable, succeeds_bindText]

variable {B : Builtins} {limits : Limits} {spell : List Char → List Char} {unit : String}

theorem succeeds_bindRaw {fs : List (List ℕ × Value)} :
    Succeeds (bindRaw spell fs) ↔ ∀ s ∈ Json.strings (.obj fs), IsText s := by
  rw [← Json.isSome_dumps jsonDumps spell]
  unfold bindRaw
  split <;> simp [*]

theorem succeeds_bindEvent {e : ParsedEvent} :
    Succeeds (bindEvent limits spell e) ↔ ¬ limits.payload e.raw ∧ IsText e.kind
      ∧ Has64Bits e.sourceId ∧ Bindable e.address ∧ Bindable e.body ∧ Bindable e.timestamp
      ∧ Bindable e.direction ∧ Bindable e.duration ∧ ∀ s ∈ Json.strings (.obj e.raw), IsText s := by
  unfold bindEvent
  split_ifs with h
  · simp [h]
  · simp only [succeeds_bind, succeeds_pure, and_true, exists_and_right]
    simp only [h, ← Succeeds.eq_1, succeeds_bindText, succeeds_bindInt, succeeds_bindValue,
      succeeds_bindRaw]
    simp

/-! ## Parsing -/

/-- The line is read, and the event it gives, if any, can be bound. -/
def Passes (B : Builtins) (limits : Limits) (spell : List Char → List Char) (unit : String)
    (line : List Char) : Prop :=
  ∃ r, parseLine B limits unit line = .ok r ∧ ∀ e ∈ r, Succeeds (bindEvent limits spell e)

section Payload

variable {line : List Char} {payload : Value}
  (hloads : Json.loads (Lines.strip isBlank line) = some payload)
  (hne : Lines.strip isBlank line ≠ []) (hl : ¬ limits.text (Lines.strip isBlank line))

include hloads hne hl

theorem not_passes (h : contains "kind" payload = .error .typeError) :
    ¬ Passes B limits spell unit line := by
  rintro ⟨r, hr, -⟩
  rw [parseLine, if_neg hl, mapError_eq_ok, fromSpoolLine] at hr
  simp [hne, hloads, h, bind, Except.bind] at hr

/-- A container is asked for both keys, and then indexed by them. -/
theorem passes_iff {kind id : Bool} (hk : contains "kind" payload = .ok kind)
    (hi : contains "id" payload = .ok id) :
    Passes B limits spell unit line ↔ (kind → id →
      ∃ e, eventOf B unit payload = .ok e ∧ Succeeds (bindEvent limits spell e)) := by
  unfold Passes
  simp only [parseLine, if_neg hl, mapError_eq_ok, fromSpoolLine, if_neg hne, hloads, hk, hi]
  cases kind with
  | false => simp [bind, Except.bind, pure, Except.pure]
  | true =>
    cases id with
    | false => simp [bind, Except.bind, pure, Except.pure]
    | true =>
      rcases eventOf B unit payload with r | e
      · simp [bind, Except.bind]
      · simp [bind, Except.bind, pure, Except.pure]

end Payload

theorem contains_arr (k : String) (vs : List Value) :
    ∃ b : Bool, contains k (.arr vs) = .ok b ∧ (b ↔ Value.str (key k) ∈ vs) := by
  refine ⟨_, rfl, ?_⟩
  rw [List.any_eq_true]
  constructor
  · rintro ⟨v, hv, h⟩
    cases v with
    | str s => simpa [← of_decide_eq_true h] using hv
    | _ => cases h
  · exact fun h => ⟨_, h, by simp⟩

/-- Only an object can be indexed by a key. -/
theorem eventOf_typeError {payload : Value} (h : ∀ fs, payload ≠ .obj fs) :
    ¬ ∃ e, eventOf B unit payload = .ok e ∧ Succeeds (bindEvent limits spell e) := by
  rintro ⟨e, he, -⟩
  cases payload with
  | obj fs => exact h fs rfl
  | _ => cases he

theorem eventOf_storable {fs : List (List ℕ × Value)} :
    (∃ e, eventOf B unit (.obj fs) = .ok e ∧ Succeeds (bindEvent limits spell e))
      ↔ Storable B limits fs := by
  simp only [eventOf, bind_eq_ok]
  constructor
  · rintro ⟨e, ⟨kind, hkind, id, hid, he⟩, hbind⟩
    obtain rfl := Except.ok.inj he
    obtain ⟨hsmall, hk, hi, h1, h2, h3, h4, h5, htexts⟩ := succeeds_bindEvent.1 hbind
    exact ⟨⟨kind, hkind, hk⟩, ⟨id, hid, hi⟩, by simp [h1, h2, h3, h4, h5], htexts, hsmall⟩
  · rintro ⟨⟨kind, hkind, hk⟩, ⟨id, hid, hi⟩, hcolumns, htexts, hsmall⟩
    simp only [List.forall_mem_cons] at hcolumns
    obtain ⟨h1, h2, h3, h4, h5, -⟩ := hcolumns
    exact ⟨_, ⟨kind, hkind, id, hid, rfl⟩,
      succeeds_bindEvent.2 ⟨hsmall, hk, hi, h1, h2, h3, h4, h5, htexts⟩⟩

theorem passes_iff_harmless {line : List Char} (hne : Lines.strip isBlank line ≠ []) :
    Passes B limits spell unit line ↔ Harmless B limits line := by
  unfold Harmless
  by_cases hl : limits.text (Lines.strip isBlank line)
  · simp [Passes, parseLine, hl]
  rcases hloads : Json.loads (Lines.strip isBlank line) with _ | payload
  · simp [Passes, parseLine, hl, fromSpoolLine, hne, hloads, mapError_eq_ok]
  simp only [hl, Bool.false_eq_true, not_false_eq_true, Option.mem_def, Option.some.injEq,
    forall_eq', true_and]
  cases payload with
  | null | bool | int | float =>
    exact iff_of_false (not_passes hloads hne hl rfl) (fun h => h)
  | arr vs =>
    obtain ⟨kind, hkind, hk⟩ := contains_arr "kind" vs
    obtain ⟨id, hid, hi⟩ := contains_arr "id" vs
    rw [passes_iff hloads hne hl hkind hid, hk, hi, HarmlessPayload, not_and]
    exact forall₂_congr fun _ _ => iff_false_intro (eventOf_typeError (by simp))
  | str s =>
    rw [passes_iff hloads hne hl rfl rfl, HarmlessPayload, not_and, decide_eq_true_iff,
      decide_eq_true_iff]
    exact forall₂_congr fun _ _ => iff_false_intro (eventOf_typeError (by simp))
  | obj fs =>
    rw [passes_iff hloads hne hl rfl rfl, eventOf_storable]
    rfl

/-! ## Inserting -/

namespace EventTable

variable {t : EventTable}

theorem mem_keys_insertOrIgnore {e : BoundEvent} {receivedAt : ℤ} {k : EventKey} :
    k ∈ (t.insertOrIgnore e receivedAt).keys ↔ k ∈ t.keys ∨ k = e.key := by
  unfold insertOrIgnore
  split_ifs with h
  · exact ⟨.inl, fun hk => hk.elim id fun he => he ▸ h⟩
  · simp only [keys, List.map_append, List.mem_append, List.map_cons, List.map_nil,
      List.mem_singleton]
    rfl

end EventTable

theorem succeeds_addEvents {receivedAt : ℤ} : ∀ {t : EventTable} {es : List ParsedEvent},
    Succeeds (addEvents limits spell t receivedAt es)
      ↔ ∀ e ∈ es, Succeeds (bindEvent limits spell e)
  | _, [] => by simp [addEvents]
  | t, e :: es => by
    rw [List.forall_mem_cons]
    simp only [addEvents, succeeds_bind, succeeds_pure, and_true]
    simp only [← Succeeds.eq_1, succeeds_addEvents, exists_and_right]

/-- A batch keeps the keys there are and adds those of its events. -/
theorem mem_keys_addEvents {receivedAt : ℤ} {k : EventKey} : ∀ {t : EventTable}
    {es : List ParsedEvent} {out : EventTable × List ParsedEvent},
    addEvents limits spell t receivedAt es = .ok out →
      (k ∈ t.keys ∨ ∃ e ∈ es, ∃ b, bindEvent limits spell e = .ok b ∧ b.key = k) →
        k ∈ out.1.keys
  | t, [], out, h, hk => by
    obtain rfl := Except.ok.inj h
    simpa using hk
  | t, e :: es, out, h, hk => by
    simp only [addEvents, bind_eq_ok] at h
    obtain ⟨b, hb, rest, hrest, hout⟩ := h
    obtain rfl := Except.ok.inj hout
    suffices h : k ∈ rest.1.keys from h
    refine mem_keys_addEvents hrest ?_
    rw [EventTable.mem_keys_insertOrIgnore, or_assoc]
    rcases hk with hk | ⟨e', he', b', hb', rfl⟩
    · exact .inl hk
    · rcases List.mem_cons.1 he' with rfl | he'
      · exact .inr (.inl (congrArg BoundEvent.key (Except.ok.inj (hb'.symm.trans hb))))
      · exact .inr (.inr ⟨e', he', b', hb', rfl⟩)

theorem text_of_bindText {s : List ℕ} {t : String} (h : bindText s = .ok t) :
    Json.text s = some t.toList := by
  unfold bindText at h
  split at h
  · rename_i hs
    rw [hs, ← Except.ok.inj h, String.toList_ofList]
  · cases h

theorem key_of_bindEvent {e : ParsedEvent} {b : BoundEvent}
    (h : bindEvent limits spell e = .ok b) :
    b.unit = e.unit ∧ Json.text e.kind = some b.kind.toList ∧ b.sourceId = e.sourceId := by
  unfold bindEvent at h
  split_ifs at h
  simp only [bind_eq_ok] at h
  obtain ⟨kind, hkind, id, hid, _, -, _, -, _, -, _, -, _, -, _, -, hb⟩ := h
  obtain rfl := Except.ok.inj hb
  refine ⟨rfl, text_of_bindText hkind, ?_⟩
  unfold bindInt at hid
  split_ifs at hid
  exact (Except.ok.inj hid).symm

/-- A well-formed event that was bound in a batch has its row. -/
theorem holds_of_addEvents {t : EventTable} {receivedAt : ℤ} {es : List ParsedEvent}
    {out : EventTable × List ParsedEvent} (h : addEvents limits spell t receivedAt es = .ok out)
    {e : ParsedEvent} (he : e ∈ es) : out.1.Holds e.unit e.kind e.sourceId := by
  obtain ⟨b, hb⟩ := succeeds_addEvents.1 ⟨out, h⟩ e he
  obtain ⟨hunit, hkind, hid⟩ := key_of_bindEvent hb
  obtain ⟨r, hr, hkey⟩ := List.mem_map.1 (mem_keys_addEvents h (.inr ⟨e, he, b, hb, rfl⟩))
  simp only [BoundEvent.key, Prod.mk.injEq] at hkey
  exact ⟨r, hr, hkey.1.trans hunit, hkey.2.1 ▸ hkind, hkey.2.2.trans hid⟩

/-! ## The drain -/

theorem wellFormed_parsed {line : List Char} {kind : List ℕ} {id : ℤ}
    (hwell : WellFormed line kind id) (hne : Lines.strip isBlank line ≠ [])
    {r : Option ParsedEvent} (hr : parseLine B limits unit line = .ok r) :
    ∃ e, r = some e ∧ e.unit = unit ∧ e.kind = kind ∧ e.sourceId = id := by
  obtain ⟨fs, hloads, hkind, hid, -, -⟩ := hwell
  have hhas : ∀ {k : String}, get k fs ≠ .null → contains k (.obj fs) = .ok true := by
    intro k hk
    rw [contains, Except.ok.injEq, Option.isSome_iff_ne_none]
    intro hnone
    exact hk (by rw [get, hnone, Option.getD_none])
  unfold parseLine at hr
  split_ifs at hr
  rw [mapError_eq_ok, fromSpoolLine] at hr
  simp only [if_neg hne, hloads, hhas (k := "kind") (by simp [hkind]),
    hhas (k := "id") (by simp [hid]), eventOf, hkind, hid, B.str_str, B.int_int] at hr
  exact ⟨_, (Except.ok.inj hr).symm, rfl, rfl, rfl⟩

theorem strip_ne_nil {spool line : List Char} (h : line ∈ spoolLines spool) :
    Lines.strip isBlank line ≠ [] := by
  simpa using (List.mem_filter.1 h).2

/-- A batch reaches its ack, with every well-formed event of it committed, exactly when it has a
line that is not blank and each such line is harmless. -/
theorem completes_iff (B : Builtins) (limits : Limits) (spell : List Char → List Char)
    (g : UnitDrain) (unit : String) (receivedAt : ℤ) (spool : List Char) :
    Completes B limits spell g unit receivedAt spool
      ↔ spoolLines spool ≠ [] ∧ ∀ line ∈ spoolLines spool, Harmless B limits line := by
  unfold Completes drainUnit
  constructor
  · rintro ⟨g', hg, hacks, -⟩
    simp only [] at hg
    split_ifs at hg with hnil
    · obtain rfl := Except.ok.inj hg
      omega
    · refine ⟨hnil, fun line hline => ?_⟩
      simp only [bind_eq_ok] at hg
      obtain ⟨parsed, hparsed, out, hout, -⟩ := hg
      obtain ⟨r, hr⟩ := succeeds_mapM.1 ⟨parsed, hparsed⟩ line hline
      have hpass : Passes B limits spell unit line := by
        refine ⟨r, hr, fun e he => succeeds_addEvents.1 ⟨out, hout⟩ e ?_⟩
        exact List.reduceOption_mem_iff.2 (he ▸ mem_of_mapM hparsed hline hr)
      exact (passes_iff_harmless (strip_ne_nil hline)).1 hpass
  · rintro ⟨hnil, hlines⟩
    have hpass : ∀ line ∈ spoolLines spool, Passes B limits spell unit line := fun line hline =>
      (passes_iff_harmless (strip_ne_nil hline)).2 (hlines line hline)
    have hparse : Succeeds ((spoolLines spool).mapM (parseLine B limits unit)) :=
      succeeds_mapM.2 fun line hline => (hpass line hline).imp fun _ => And.left
    obtain ⟨parsed, hparsed⟩ := hparse
    have hinsert : Succeeds (addEvents limits spell g.table receivedAt parsed.reduceOption) := by
      refine succeeds_addEvents.2 fun e he => ?_
      obtain ⟨line, hline, hr⟩ := exists_of_mem_mapM hparsed (List.reduceOption_mem_iff.1 he)
      obtain ⟨r, hr', hall⟩ := hpass line hline
      exact hall e (Except.ok.inj (hr'.symm.trans hr))
    obtain ⟨out, hout⟩ := hinsert
    refine ⟨⟨out.1, ⟨g.stats.drained + parsed.reduceOption.length,
      g.stats.stored + out.2.length⟩, g.acks + 1⟩, ?_, rfl, fun line hline kind id hwell => ?_⟩
    · simp only [if_neg hnil, bind_eq_ok]
      exact ⟨parsed, hparsed, out, hout, rfl⟩
    · obtain ⟨r, hr, -⟩ := hpass line hline
      obtain ⟨e, rfl, rfl, rfl, rfl⟩ := wellFormed_parsed hwell (strip_ne_nil hline) hr
      exact holds_of_addEvents hout (List.reduceOption_mem_iff.2 (mem_of_mapM hparsed hline hr))

/-- No limits. -/
def unlimited : Limits := ⟨fun _ => false, fun _ => false⟩

/-- A number, and after it a message. -/
def numberFirst : List Char :=
  "5\n\x7b\"kind\":\"sms\",\"id\":1,\"address\":\"+1\",\"body\":\"hi\"\x7d\n".toList

theorem number_blocks_batch : ¬ ∀ (B : Builtins) (limits : Limits)
    (spell : List Char → List Char) (g : UnitDrain) (unit : String) (receivedAt : ℤ)
    (spool : List Char), Completes B limits spell g unit receivedAt spool := by
  intro h
  obtain ⟨g', hg, -⟩ := h plainBuiltins unlimited id ⟨.empty, ⟨0, 0⟩, 0⟩ "lisa01" 1700000000
    numberFirst
  have hraises : (drainUnit plainBuiltins unlimited id ⟨.empty, ⟨0, 0⟩, 0⟩ "lisa01" 1700000000
      numberFirst).toOption.isSome = false := by decide +kernel
  rw [hg] at hraises
  cases hraises

/-! ## What the device writes -/

namespace EventTable

theorem keys_ofStore (s : EventStore) : (ofStore s).keys = s.keys := by
  simp only [keys, ofStore, List.map_map]
  rfl

theorem maxId_ofStore : ∀ rows : List Row,
    Table.maxId BoundRow.id (rows.map Row.bound) = Table.maxId Row.id rows
  | [] => rfl
  | r :: rows => congrArg (max r.id) (maxId_ofStore rows)

/-- On events of the declared types this is the store's own insert. -/
theorem ofStore_insertOrIgnore (s : EventStore) (e : Event) (receivedAt : ℤ) :
    (ofStore s).insertOrIgnore e.bound receivedAt = ofStore (s.insertOrIgnore e receivedAt) := by
  have hkey : e.bound.key = e.key := rfl
  unfold insertOrIgnore EventStore.insertOrIgnore
  simp only [keys_ofStore, hkey]
  split_ifs with h
  · rfl
  · unfold ofStore newRow
    simp only [mk.injEq, List.map_append, List.map_cons, List.map_nil, maxId_ofStore]
    rfl

end EventTable

theorem bindText_key (s : String) : bindText (key s) = .ok s := by
  rw [bindText, key, Json.text_codes]
  simp

theorem bindValue_text (s : Option String) :
    bindValue ((s.map fun s => Value.str (key s)).getD .null) = .ok (.ofText s) := by
  cases s with
  | none => rfl
  | some s => simp [bindValue, bindText_key, SqlValue.ofText]

theorem bindInt_fits {n : ℤ} (h : Has64Bits n) : bindInt n = .ok n := if_pos h

theorem bindValue_int {n : Option ℤ} (h : ∀ m ∈ n, Has64Bits m) :
    bindValue ((n.map Value.int).getD .null) = .ok (.ofInt n) := by
  cases n with
  | none => rfl
  | some n => simp [bindValue, bindInt_fits (h n rfl), SqlValue.ofInt]

theorem bindEvent_parsed {x : Spooled} (hx : x.Fits)
    (hl : ¬ limits.payload (Json.members x.fields)) :
    bindEvent limits spell (x.parsed unit) = .ok (x.toEvent unit).bound := by
  have haddress : bindValue (.str (key x.event.address)) = .ok (.ofText (some x.event.address)) :=
    bindValue_text (some x.event.address)
  have hts : bindValue (.int x.event.ts) = .ok (.ofInt (some x.event.ts)) :=
    bindValue_int (n := some x.event.ts) (by simpa using hx.ts)
  have hraw : bindRaw spell (Json.members x.fields)
      = .ok (String.ofList (Json.printObject jsonDumps x.fields)) := by
    rw [bindRaw, Json.dumps_members]
  simp only [bindEvent, Spooled.parsed, if_neg hl, bindText_key, bindInt_fits hx.id, haddress,
    bindValue_text, hts, bindValue_int hx.duration, hraw]
  rfl

/-- A batch of the device's own events is committed as `EventStore.addEvents` commits it. -/
theorem addEvents_parsed (receivedAt : ℤ) : ∀ (s : EventStore) {xs : List Spooled},
    (∀ x ∈ xs, x.Fits ∧ ¬ limits.payload (Json.members x.fields)) →
      ∃ stored, addEvents limits spell (.ofStore s) receivedAt (xs.map (Spooled.parsed unit))
        = .ok (.ofStore (s.addEvents receivedAt (xs.map (Spooled.toEvent unit))).1, stored)
  | s, [], _ => ⟨[], rfl⟩
  | s, x :: xs, h => by
    obtain ⟨⟨hx, hl⟩, h⟩ := List.forall_mem_cons.1 h
    obtain ⟨stored, hstored⟩ := addEvents_parsed receivedAt
      (s.insertOrIgnore (x.toEvent unit) receivedAt) h
    refine ⟨if (EventTable.ofStore s).stores (x.toEvent unit).bound then
      x.parsed unit :: stored else stored, ?_⟩
    simp only [List.map_cons, addEvents, bindEvent_parsed hx hl, bind_eq_ok]
    rw [← EventTable.ofStore_insertOrIgnore] at hstored
    exact ⟨_, rfl, _, hstored, rfl⟩

/-- What the spool's text of some unbroken events drains to is `Delivery`'s commit of the batch. -/
theorem drainUnit_spoolText (g : UnitDrain) (s : EventStore) (hg : g.table = .ofStore s)
    (receivedAt : ℤ) {xs : List Spooled} (hne : xs ≠ [])
    (h : ∀ x ∈ xs, Unbroken x ∧ x.Fits ∧ ¬ limits.payload (Json.members x.fields)
      ∧ ¬ limits.text x.line) :
    ∃ g', drainUnit B limits spell g unit receivedAt (spoolText xs) = .ok g'
      ∧ g'.table = .ofStore (s.addEvents receivedAt (xs.map (Spooled.toEvent unit))).1
      ∧ g'.acks = g.acks + 1 := by
  have hstrip : ∀ x : Spooled, Lines.strip isBlank x.line = x.line := fun x => by
    rw [x.line_eq, Lines.strip_eq_self (by decide) (by decide)]
  have hlines : spoolLines (spoolText xs) = xs.map Spooled.line := by
    rw [spoolLines, spoolText,
      Lines.split_flatMap (by decide) fun x hx => unbroken_iff.1 (h x hx).1]
    refine List.filter_eq_self.2 fun line hline => ?_
    obtain ⟨x, -, rfl⟩ := List.mem_map.1 hline
    exact decide_eq_true (by rw [hstrip, x.line_eq]; simp)
  have hparsed : (xs.map Spooled.line).mapM (parseLine B limits unit)
      = .ok (xs.map fun x => some (x.parsed unit)) := by
    refine mapM_eq_ok.2 (List.forall₂_map_left_iff.2 (List.forall₂_map_right_iff.2 ?_))
    refine List.forall₂_same.2 fun x hx => ?_
    rw [parseLine, if_neg (by rw [hstrip]; exact (h x hx).2.2.2), fromSpoolLine_line]
    rfl
  have hevents : (xs.map fun x => some (x.parsed unit)).reduceOption
      = xs.map (Spooled.parsed unit) := by
    rw [List.reduceOption, List.filterMap_map]
    exact congrFun List.filterMap_eq_map' xs
  have hfits : ∀ x ∈ xs, x.Fits ∧ ¬ limits.payload (Json.members x.fields) := fun x hx =>
    ⟨(h x hx).2.1, (h x hx).2.2.1⟩
  obtain ⟨stored, hstored⟩ := addEvents_parsed receivedAt s hfits
  refine ⟨⟨.ofStore (s.addEvents receivedAt (xs.map (Spooled.toEvent unit))).1,
    ⟨g.stats.drained + xs.length, g.stats.stored + stored.length⟩, g.acks + 1⟩, ?_, rfl, rfl⟩
  unfold drainUnit
  simp only [hlines, List.map_eq_nil_iff, if_neg hne, bind_eq_ok]
  refine ⟨_, hparsed, _, by rw [hevents, hg]; exact hstored, ?_⟩
  simp [hevents, pure, Except.pure]

end Rackphone
