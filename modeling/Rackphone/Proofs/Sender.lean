import Rackphone.Lib.Run
import Rackphone.Proofs.Spool
import Rackphone.Sender

/-!
# Every send resolves once

The entry of a send is the fold of the results of its parts, as a text that reads back as what was
written. A report changes the entry of the send that owns the intent and no other, so the sends do
not meet; each has as many intents out as results to come.
-/

namespace Rackphone

open Json (Value)

/-! ## Names of failures -/

theorem printNum_injective : Function.Injective Json.printNum := by
  have hinv : ∀ n, Json.Reader.intValue (Json.printNum n) = n := by
    rintro (n | n)
    · exact Json.Reader.intValue_toDigits n
    · exact Json.Reader.intValue_neg_toDigits (n + 1)
  exact Function.LeftInverse.injective hinv

theorem errorName_cases {code : ℤ} (h : code ≠ RESULT_OK) :
    (∃ name, (code, name) ∈ ERROR_NAMES ∧ errorName code = name.toList)
      ∨ errorName code = "error_".toList ++ Json.printNum code := by
  rw [errorName, if_neg h]
  split
  next e he =>
    obtain rfl : e.1 = code := by simpa using List.find?_some he
    exact .inl ⟨e.2, List.mem_of_find?_eq_some he, rfl⟩
  next => exact .inr rfl

theorem errorName_word {code : ℤ} (h : code ≠ RESULT_OK) :
    errorName code ≠ [] ∧ ',' ∉ errorName code := by
  rcases errorName_cases h with ⟨name, hname, heq⟩ | heq <;> rw [heq]
  · have htable : ∀ e ∈ ERROR_NAMES, e.2.toList ≠ [] ∧ ',' ∉ e.2.toList := by decide +kernel
    exact htable _ hname
  · refine ⟨by simp, fun hmem => ?_⟩
    rcases List.mem_append.1 hmem with hmem | hmem
    · exact absurd hmem (by decide)
    · cases code with
      | ofNat n => exact absurd (Nat.isDigit_of_mem_toDigits (by omega) (by omega) hmem) (by decide)
      | negSucc n =>
        rcases List.mem_cons.1 hmem with hmem | hmem
        · exact absurd hmem (by decide)
        · exact absurd (Nat.isDigit_of_mem_toDigits (by omega) (by omega) hmem) (by decide)

/-- Two failures of one name are one failure. -/
theorem errorName_inj {c c' : ℤ} (h : c ≠ RESULT_OK) (h' : c' ≠ RESULT_OK)
    (heq : errorName c = errorName c') : c = c' := by
  have htable : ∀ e ∈ ERROR_NAMES, ∀ e' ∈ ERROR_NAMES, e.2 = e'.2 → e.1 = e'.1 := by decide
  have hother : ∀ e ∈ ERROR_NAMES, ∀ n, e.2.toList ≠ "error_".toList ++ Json.printNum n := by
    intro e he n hn
    have hpre : ∀ e ∈ ERROR_NAMES, ¬ "error_".toList <+: e.2.toList := by decide +kernel
    exact hpre e he ⟨_, hn.symm⟩
  rcases errorName_cases h with ⟨n, hn, hc⟩ | hc <;>
    rcases errorName_cases h' with ⟨n', hn', hc'⟩ | hc' <;> rw [hc, hc'] at heq
  · exact htable _ hn _ hn' (String.toList_injective heq)
  · exact absurd heq (hother _ hn c')
  · exact absurd heq.symm (hother _ hn' c)
  · exact printNum_injective (List.append_cancel_left heq)

/-! ## A pending entry -/

namespace Pending

theorem optString_members (fs : List (String × Json.Scalar)) (k : String) {v : String}
    (h : (fs.find? fun f => f.1 = k).map Prod.snd = some (.str v)) :
    String.ofList (optString k (Json.members fs)) = v := by
  have hget : get k (Json.members fs) = .str (Json.codes v.toList) := by
    obtain ⟨f, hf, hv⟩ := Option.map_eq_some_iff.1 h
    rw [get, key, Json.lookup_members, hf, Option.map_some, Option.getD_some, hv]
    rfl
  rw [optString, hget]
  simp

theorem optInt_members (fs : List (String × Json.Scalar)) (k : String) {n fallback : ℤ}
    (h : (fs.find? fun f => f.1 = k).map Prod.snd = some (.num n)) :
    optInt k fallback (Json.members fs) = n := by
  have hget : get k (Json.members fs) = .int n := by
    obtain ⟨f, hf, hv⟩ := Option.map_eq_some_iff.1 h
    rw [get, key, Json.lookup_members, hf, Option.map_some, Option.getD_some, hv]
    rfl
  rw [optInt, hget]

/-- An entry reads back as it was stored. -/
theorem read_text (p : Pending) : read p.text = some p := by
  have hkeys : (p.fields.map Prod.fst).Nodup := by
    have : p.fields.map Prod.fst = ["id", "to", "source", "sub_id", "parts_total", "parts_ok",
      "parts_failed", "body_chars", "queued_ms", "errors"] := rfl
    rw [this]
    decide
  rw [read, text, Json.loads_printObject orgJson hkeys]
  have herrors : optString "errors" (Json.members p.fields) = p.errors := by
    have h := optString_members p.fields "errors" (v := String.ofList p.errors) rfl
    simpa using congrArg String.toList h
  simp only [optString_members p.fields "id" (v := p.id) rfl,
    optString_members p.fields "to" (v := p.target) rfl,
    optString_members p.fields "source" (v := p.source) rfl, herrors,
    optInt_members p.fields "sub_id" (n := p.subId) rfl,
    optInt_members p.fields "parts_total" (n := p.partsTotal) rfl,
    optInt_members p.fields "parts_ok" (n := p.partsOk) rfl,
    optInt_members p.fields "parts_failed" (n := p.partsFailed) rfl,
    optInt_members p.fields "body_chars" (n := p.bodyChars) rfl,
    optInt_members p.fields "queued_ms" (n := p.queuedMs) rfl]

/-- An entry with the results that came in. -/
def after (p : Pending) (results : List ℤ) : Pending := results.foldl count p

theorem after_concat (p : Pending) (results : List ℤ) (r : ℤ) :
    p.after (results ++ [r]) = (p.after results).count r := by
  rw [after, List.foldl_append]
  rfl

/-- The entry a send starts with. -/
structure Fresh (p : Pending) : Prop where
  partsOk : p.partsOk = 0
  partsFailed : p.partsFailed = 0
  errors : p.errors = []

/-- What an entry says of the results that came in. -/
structure Tally (p : Pending) (results : List ℤ) (q : Pending) : Prop where
  partsOk : q.partsOk = results.count RESULT_OK
  partsFailed : q.partsFailed = results.countP fun r => r ≠ RESULT_OK
  errors : ∃ codes : List ℤ, codes.Nodup ∧ (∀ r, r ∈ codes ↔ r ∈ results ∧ r ≠ RESULT_OK)
    ∧ q.errors = [','].intercalate (codes.map errorName)
  partsTotal : q.partsTotal = p.partsTotal
  request : q.id = p.id ∧ q.target = p.target ∧ q.source = p.source ∧ q.subId = p.subId

theorem Fresh.tally {p : Pending} (h : p.Fresh) : p.Tally [] p :=
  ⟨h.partsOk, h.partsFailed, ⟨[], .nil, by simp, h.errors⟩, rfl, rfl, rfl, rfl, rfl⟩

theorem Tally.count {p q : Pending} {results : List ℤ} (h : p.Tally results q) (r : ℤ) :
    p.Tally (results ++ [r]) (q.count r) := by
  obtain ⟨codes, hnodup, hcodes, herrors⟩ := h.errors
  by_cases hr : r = RESULT_OK
  · rw [Pending.count, if_pos hr]
    refine ⟨by simp [h.partsOk, hr], by simp [h.partsFailed, hr], ⟨codes, hnodup, ?_, herrors⟩,
      h.partsTotal, h.request⟩
    intro c
    rw [hcodes, List.mem_append, List.mem_singleton]
    exact ⟨fun hc => ⟨.inl hc.1, hc.2⟩,
      fun hc => ⟨hc.1.resolve_right fun he => hc.2 (he.trans hr), hc.2⟩⟩
  · rw [Pending.count, if_neg hr]
    have hwords : ∀ w ∈ codes.map errorName, w ≠ [] ∧ ',' ∉ w := by
      intro w hw
      obtain ⟨c, hc, rfl⟩ := List.mem_map.1 hw
      exact errorName_word ((hcodes c).1 hc).2
    have hmem : errorName r ∈ codes.map errorName ↔ r ∈ codes := by
      refine ⟨fun hm => ?_, List.mem_map_of_mem⟩
      obtain ⟨c, hc, heq⟩ := List.mem_map.1 hm
      exact errorName_inj ((hcodes c).1 hc).2 hr heq ▸ hc
    refine ⟨by simp [h.partsOk, hr], by simp [h.partsFailed, hr],
      ⟨if r ∈ codes then codes else codes ++ [r], ?_, ?_, ?_⟩, h.partsTotal, h.request⟩
    · split_ifs with hin
      · exact hnodup
      · exact List.nodup_append.2 ⟨hnodup, List.nodup_singleton r,
          fun a ha b hb he => hin (he.trans (List.mem_singleton.1 hb) ▸ ha)⟩
    · intro c
      split_ifs with hin
      · rw [hcodes, List.mem_append, List.mem_singleton]
        exact ⟨fun hc => ⟨.inl hc.1, hc.2⟩,
          fun hc => ⟨hc.1.elim (fun hm => hm) fun he => he ▸ ((hcodes r).1 hin).1, hc.2⟩⟩
      · rw [List.mem_append, List.mem_append, hcodes, List.mem_singleton]
        exact ⟨fun hc => hc.elim (fun hc => ⟨.inl hc.1, hc.2⟩) fun he => ⟨.inr he, he ▸ hr⟩,
          fun hc => hc.1.imp_left fun hm => ⟨hm, hc.2⟩⟩
    · rw [herrors, Separated.add_intercalate hwords (errorName_word hr).1]
      simp only [hmem]
      split_ifs
      · rfl
      · rw [List.map_append, List.map_singleton]

theorem Fresh.tally_after {p : Pending} (h : p.Fresh) (results : List ℤ) :
    p.Tally results (p.after results) := by
  induction results using List.reverseRecOn with
  | nil => exact h.tally
  | append_singleton results r ih => exact after_concat p results r ▸ ih.count r

/-- A part has succeeded or failed. -/
theorem Tally.settled {p q : Pending} {results : List ℤ} (h : p.Tally results q) :
    q.partsOk + q.partsFailed = results.length := by
  have hlen := List.length_eq_countP_add_countP (fun r : ℤ => r = RESULT_OK) (l := results)
  have hcount : results.count RESULT_OK = results.countP fun r => r = RESULT_OK :=
    List.countP_congr fun r _ => by simp
  have hfailed : results.countP (fun r => r ≠ RESULT_OK)
      = results.countP fun r => ¬ decide (r = RESULT_OK) = true :=
    List.countP_congr fun r _ => by simp
  rw [h.partsOk, h.partsFailed, hcount, hfailed, hlen, Nat.cast_add]

theorem Tally.failed_iff {p q : Pending} {results : List ℤ} (h : p.Tally results q) :
    ¬ 0 < q.partsFailed ↔ ∀ r ∈ results, r = RESULT_OK := by
  rw [h.partsFailed, Int.natCast_pos, List.countP_pos_iff]
  simp

theorem Tally.outcome {p q : Pending} {results : List ℤ} (h : p.Tally results q)
    (hlen : (results.length : ℤ) = p.partsTotal) : Sender.Outcome p results q where
  status := by
    rw [← h.failed_iff, status]
    split_ifs with hf <;> simp [hf]
  partsTotal := h.partsTotal.trans hlen.symm
  partsOk := h.partsOk
  partsFailed := h.partsFailed
  errors := h.errors
  request := h.request

end Pending

namespace Sender

variable {K : KotlinChars}

/-! ## The intents of a send -/

/-- The intents of one send that are out. -/
def heldFor (s : Sender) (id : String) : ℕ := s.held.countP fun c => s.owner c = some id

theorem nextCodes_succ (code : Int32) (n : ℕ) :
    nextCodes code (n + 1) = (code + 1) :: nextCodes (code + 1) n := by
  unfold nextCodes
  rw [List.range_succ_eq_map, List.map_cons, List.map_map]
  refine congrArg₂ List.cons rfl (List.map_congr_left fun i _ => ?_)
  rw [Function.comp_apply, Nat.succ_eq_add_one, Int32.ofNat_add, Int32.add_comm (Int32.ofNat _),
    ← Int32.add_assoc]
  rfl

theorem ofNat_inj {i j : ℕ} (hi : i < 2 ^ 31) (hj : j < 2 ^ 31)
    (h : Int32.ofNat i = Int32.ofNat j) : i = j := by
  have hint := congrArg Int32.toInt h
  rw [Int32.toInt_ofNat_of_lt hi, Int32.toInt_ofNat_of_lt hj] at hint
  exact Int.ofNat_inj.1 hint

theorem nodup_nextCodes (code : Int32) {n : ℕ} (hn : n < 2 ^ 31) : (nextCodes code n).Nodup := by
  refine List.Nodup.map_on (fun i hi j hj h => ?_) List.nodup_range
  rw [List.mem_range] at hi hj
  exact Nat.succ_injective (ofNat_inj (by omega) (by omega) ((Int32.add_right_inj code).1 h))

/-- New intents have the next codes, and touch nothing else. -/
theorem resultIntents_spec (id : String) : ∀ (n part : ℕ) (s : Sender), ∃ requestCode intents,
    s.resultIntents id part n = ({ s with requestCode, intents }, nextCodes s.requestCode n)
      ∧ ∀ c, (intents.get c).map Prod.fst
          = if c ∈ nextCodes s.requestCode n then some id else s.owner c
  | 0, _, s => ⟨s.requestCode, s.intents, rfl, fun _ => by simp [owner, nextCodes]⟩
  | n + 1, part, s => by
    obtain ⟨requestCode, intents, heq, howner⟩ := resultIntents_spec id n (part + 1)
      { s with
        requestCode := s.requestCode + 1
        intents := s.intents.set (s.requestCode + 1) (id, part) }
    refine ⟨requestCode, intents, ?_, fun c => ?_⟩
    · rw [resultIntents, heq, nextCodes_succ]
    · rw [howner, nextCodes_succ]
      simp only [List.mem_cons, owner, Dict.get_set]
      by_cases hc : c = s.requestCode + 1 <;> simp [hc]

/-- What a request leaves as it was, these codes apart. -/
structure RequestFrame (s : Sender) (id : String) (codes : List Int32) (s' : Sender) : Prop where
  owner : ∀ c ∉ codes, s'.owner c = s.owner c
  pending : ∀ other ≠ id, s'.pending.get other = s.pending.get other
  resolved : s'.resolved = s.resolved
  counters : s'.sentOk = s.sentOk ∧ s'.sentFailed = s.sentFailed
  clocks : s'.lastSuccessMs = s.lastSuccessMs
  history : s'.ids = s.ids ∧ s'.results = s.results

/-- The request has not reached the radio, and is counted. -/
structure Refused (s : Sender) (s' : Sender) : Prop where
  held : s'.held = s.held
  accepted : s'.accepted = s.accepted
  rejected : s'.rejected = s.rejected + 1
  rejections : s'.rejections = s.rejections + 1

/-- The radio holds an intent for each part. -/
structure Accepted (s : Sender) (id : String) (codes : List Int32) (s' : Sender) (p : Pending) :
    Prop where
  fresh : p.Fresh
  id_eq : p.id = id
  partsTotal : p.partsTotal = codes.length
  parts_pos : 0 < codes.length
  nodup : codes.Nodup
  held : s'.held = s.held ++ codes
  owner : ∀ c ∈ codes, s'.owner c = some id
  pending : s'.pending.get id = some p.text
  accepted : s'.accepted = s.accepted ++ [p]
  rejected : s'.rejected = s.rejected
  rejections : s'.rejections = s.rejections

/-- All that a request does to a sender. -/
def RequestSpec (s : Sender) (id : String) (codes : List Int32) (s' : Sender) : Prop :=
  RequestFrame s id codes s' ∧ (Refused s s' ∨ ∃ p, Accepted s id codes s' p)

theorem requestFrame_reject {s t : Sender} {request : Keepalive.SendRequest} {codes : List Int32}
    (h : RequestFrame s request.id codes t) (reason : String) (now : ℤ) :
    RequestFrame s request.id codes (t.reject K request reason now) where
  owner := h.owner
  pending := h.pending
  resolved := by
    rw [← h.resolved, Sender.resolved, reject, List.filterMap_append]
    exact List.append_nil _
  counters := h.counters
  clocks := h.clocks
  history := h.history

theorem RequestFrame.rfl (s : Sender) (id : String) (codes : List Int32) :
    RequestFrame s id codes s :=
  ⟨fun _ _ => Eq.refl _, fun _ _ => Eq.refl _, Eq.refl _, ⟨Eq.refl _, Eq.refl _⟩, Eq.refl _,
    ⟨Eq.refl _, Eq.refl _⟩⟩

theorem refused_reject {s t : Sender} (hheld : t.held = s.held) (haccepted : t.accepted = s.accepted)
    (hrejected : t.rejected = s.rejected) (houtbox : t.outbox = s.outbox)
    (request : Keepalive.SendRequest) (reason : String) (now : ℤ) :
    Refused s (t.reject K request reason now) where
  held := hheld
  accepted := haccepted
  rejected := congrArg (· + 1) hrejected
  rejections := by
    unfold rejections reject
    rw [houtbox, List.countP_append]
    rfl

theorem requestSpec_reject (s : Sender) (request : Keepalive.SendRequest) (codes : List Int32)
    (reason : String) (now : ℤ) :
    RequestSpec s request.id codes (s.reject K request reason now) :=
  ⟨requestFrame_reject (.rfl s _ _) reason now, .inl (refused_reject rfl rfl rfl rfl _ _ _)⟩

theorem requestSpec_submit (s : Sender) (request : Keepalive.SendRequest) (target : String)
    (subId : ℤ) {parts : ℕ} (hparts : 0 < parts) (hmax : parts ≤ MAX_PARTS)
    (failure : Option String) (now : ℤ) :
    RequestSpec s request.id (nextCodes s.requestCode parts)
      (s.submit K request target subId parts failure now) := by
  obtain ⟨requestCode, intents, heq, howner⟩ := resultIntents_spec request.id parts 0 s
  have hold : ∀ c ∉ nextCodes s.requestCode parts, (intents.get c).map Prod.fst = s.owner c :=
    fun c hc => (howner c).trans (if_neg hc)
  have hlength : (nextCodes s.requestCode parts).length = parts := by simp [nextCodes]
  unfold submit
  simp only [heq]
  cases failure with
  | some name =>
    dsimp only
    constructor
    · apply requestFrame_reject
      refine ⟨hold, ?_, rfl, ⟨rfl, rfl⟩, rfl, ⟨rfl, rfl⟩⟩
      intro other hne
      simp [hne]
    · left
      apply refused_reject <;> rfl
  | none =>
    refine ⟨⟨hold, ?_, ?_, ⟨rfl, rfl⟩, rfl, ⟨rfl, rfl⟩⟩,
      .inr ⟨_, ⟨⟨rfl, rfl, rfl⟩, rfl, by rw [hlength], hparts.trans_eq hlength.symm,
        nodup_nextCodes _ (hmax.trans_lt (by decide)), rfl, ?_, ?_, rfl, rfl, ?_⟩⟩⟩
    · intro other hne
      simp [hne]
    · simp [resolved, OutboxRecord.resolution]
    · intro c hc
      exact (howner c).trans (if_pos hc)
    · simp
    · simp [rejections, OutboxRecord.isRejection]

theorem requestSpec_send (s : Sender) (request : Keepalive.SendRequest) (env : SendEnvironment)
    (now : ℤ) : RequestSpec s request.id (s.partCodes env) (s.send K request env now) := by
  unfold send
  split
  · exact requestSpec_reject s request _ _ now
  · iterate 5
      split
      · exact requestSpec_reject s request _ _ now
    split
    · exact requestSpec_reject s request _ _ now
    · exact requestSpec_reject s request _ _ now
    next n hparts =>
      split
      · exact requestSpec_reject s request _ _ now
      next hmax =>
        have hcodes : s.partCodes env = nextCodes s.requestCode (n + 1) := by
          unfold partCodes
          rw [hparts]
          exact if_pos (not_lt.1 hmax)
        rw [hcodes]
        exact requestSpec_submit s request _ _ (Nat.succ_pos _) (not_lt.1 hmax) _ now

/-! ## The result of a part -/

/-- What a report does whether or not it is the last of its send. -/
structure ReportFrame (s : Sender) (code : Int32) (id : String) (r : ℤ) (s' : Sender) : Prop where
  held : s'.held = s.held.erase code
  results : s'.results = s.results ++ [(id, r)]
  intents : s'.intents = s.intents
  requestCode : s'.requestCode = s.requestCode
  history : s'.ids = s.ids ∧ s'.accepted = s.accepted
  pending : ∀ other ≠ id, s'.pending.get other = s.pending.get other

/-- More parts are to report. -/
structure Waits (s : Sender) (id : String) (q : Pending) (s' : Sender) : Prop where
  entry : s'.pending.get id = some q.text
  outbox : s'.outbox = s.outbox
  counters : s'.sentOk = s.sentOk ∧ s'.sentFailed = s.sentFailed
  clocks : s'.lastSuccessMs = s.lastSuccessMs

/-- The send is resolved. -/
structure Settles (s : Sender) (id : String) (q : Pending) (now : ℤ) (s' : Sender) : Prop where
  entry : s'.pending.get id = none
  resolved : s'.resolved = s.resolved ++ [q]
  counters : if 0 < q.partsFailed then s'.sentOk = s.sentOk ∧ s'.sentFailed = s.sentFailed + 1
    else s'.sentOk = s.sentOk + 1 ∧ s'.sentFailed = s.sentFailed
  clocks : s'.lastSuccessMs = if 0 < q.partsFailed then s.lastSuccessMs
    else Function.update s.lastSuccessMs q.subId now

theorem report_spec {s : Sender} {code : Int32} {id : String} {p : Pending}
    (howner : s.owner code = some id) (hentry : s.pending.get id = some p.text) (r now : ℤ) :
    ReportFrame s code id r (step K s (.report code r now))
      ∧ if (p.count r).partsOk + (p.count r).partsFailed < (p.count r).partsTotal
        then Waits s id (p.count r) (step K s (.report code r now))
        else Settles s id (p.count r) now (step K s (.report code r now)) := by
  have hread : (s.pending.get id).bind Pending.read = some p := by
    rw [hentry]
    exact Pending.read_text p
  simp only [step, howner, onPartResult, hread]
  split_ifs with hwait hfail
  · exact ⟨⟨rfl, rfl, rfl, rfl, ⟨rfl, rfl⟩, fun other hne => by simp [hne]⟩,
      ⟨by simp, rfl, ⟨rfl, rfl⟩, rfl⟩⟩
  · exact ⟨⟨rfl, rfl, rfl, rfl, ⟨rfl, rfl⟩, fun other hne => by simp [hne]⟩,
      ⟨by simp, by simp [resolved, OutboxRecord.resolution], by rw [if_pos hfail]; exact ⟨rfl, rfl⟩,
        (if_pos hfail).symm⟩⟩
  · exact ⟨⟨rfl, rfl, rfl, rfl, ⟨rfl, rfl⟩, fun other hne => by simp [hne]⟩,
      ⟨by simp, by simp [resolved, OutboxRecord.resolution], by rw [if_neg hfail]; exact ⟨rfl, rfl⟩,
        (if_neg hfail).symm⟩⟩

/-! ## The invariant -/

/-- Where one send stands. -/
structure SendInv (s : Sender) (p : Pending) : Prop where
  fresh : p.Fresh
  total_pos : 0 < p.partsTotal
  known : p.id ∈ s.ids
  left : (s.heldFor p.id : ℤ) + (s.resultsOf p.id).length = p.partsTotal
  opened : (s.resultsOf p.id).length < p.partsTotal →
    s.pending.get p.id = some (p.after (s.resultsOf p.id)).text ∧ s.resolutionsOf p.id = []
  closed : (s.resultsOf p.id).length = p.partsTotal →
    s.pending.get p.id = none ∧ s.resolutionsOf p.id = [p.after (s.resultsOf p.id)]

/-- The two counters, each as far as 32 bits count. -/
def Counts (s : Sender) : Prop :=
  s.sentOk = Int32.ofNat (s.resolved.countP fun q => ¬ 0 < q.partsFailed)
    ∧ s.sentFailed = Int32.ofNat (s.resolved.countP fun q => 0 < q.partsFailed)

theorem Counts.settle {s s' : Sender} (h : s.Counts) {q : Pending}
    (hresolved : s'.resolved = s.resolved ++ [q])
    (hcounters : if 0 < q.partsFailed then s'.sentOk = s.sentOk ∧ s'.sentFailed = s.sentFailed + 1
      else s'.sentOk = s.sentOk + 1 ∧ s'.sentFailed = s.sentFailed) : s'.Counts := by
  unfold Counts
  rw [hresolved, List.countP_append, List.countP_append, Int32.ofNat_add, Int32.ofNat_add, ← h.1,
    ← h.2]
  split_ifs at hcounters with hfail
  · simp only [hcounters, List.countP_singleton, hfail, not_true_eq_false, decide_false,
      Bool.false_eq_true, if_false, decide_true, if_true]
    exact ⟨(Int32.add_zero _).symm, rfl⟩
  · simp only [hcounters, List.countP_singleton, hfail, not_false_eq_true, decide_false,
      Bool.false_eq_true, if_false, decide_true, if_true]
    exact ⟨rfl, (Int32.add_zero _).symm⟩

theorem status_eq_ok {q : Pending} : q.status = "ok" ↔ ¬ 0 < q.partsFailed := by
  unfold Pending.status
  split_ifs with hfail <;> simp [hfail]

theorem Counts.countsResolved {s : Sender} (h : s.Counts) : s.CountsResolved where
  sentOk := by
    simp only [status_eq_ok]
    exact h.1
  sentFailed := by
    simp only [ne_eq, status_eq_ok, not_not]
    exact h.2
  total hlt := by
    have hlen := List.length_eq_countP_add_countP (fun q : Pending => 0 < q.partsFailed)
      (l := s.resolved)
    rw [h.1, h.2, Int32.toInt_ofNat_of_lt, Int32.toInt_ofNat_of_lt]
    · simp only [decide_eq_true_eq] at hlen
      omega
    · exact List.countP_le_length.trans_lt hlt
    · exact List.countP_le_length.trans_lt hlt

structure Inv (s : Sender) : Prop where
  held_nodup : s.held.Nodup
  held_owner : ∀ c ∈ s.held, ∃ p ∈ s.accepted, s.owner c = some p.id
  accepted_nodup : (s.accepted.map Pending.id).Nodup
  results_known : ∀ r ∈ s.results, r.1 ∈ s.ids
  resolved_known : ∀ q ∈ s.resolved, q.id ∈ s.ids
  sends : ∀ p ∈ s.accepted, s.SendInv p
  counters : s.Counts

theorem inv_start : Inv start where
  held_nodup := .nil
  held_owner := by simp [start]
  accepted_nodup := .nil
  results_known := by simp [start]
  resolved_known := by simp [start, resolved]
  sends := by simp [start]
  counters := ⟨rfl, rfl⟩

/-- A send stands where it stood as long as nothing of its own changes. -/
theorem SendInv.of_eq {s s' : Sender} {p : Pending} (h : s.SendInv p) (hids : s.ids ⊆ s'.ids)
    (hheld : s'.heldFor p.id = s.heldFor p.id) (hresults : s'.resultsOf p.id = s.resultsOf p.id)
    (hpending : s'.pending.get p.id = s.pending.get p.id)
    (hresolutions : s'.resolutionsOf p.id = s.resolutionsOf p.id) : s'.SendInv p where
  fresh := h.fresh
  total_pos := h.total_pos
  known := hids h.known
  left := by rw [hheld, hresults]; exact h.left
  opened := by rw [hresults, hpending, hresolutions]; exact h.opened
  closed := by rw [hresults, hpending, hresolutions]; exact h.closed

theorem SendInv.resolves {s : Sender} {p : Pending} (h : s.SendInv p) : s.Resolves p where
  length_le := by
    have := h.left
    omega
  opened hlt := (h.opened hlt).2
  resolved heq := ⟨(h.closed heq).1, _, (h.closed heq).2,
    (h.fresh.tally_after (s.resultsOf p.id)).outcome heq⟩

theorem Inv.allResolve {s : Sender} (h : s.Inv) : s.AllResolve :=
  ⟨fun p hp => (h.sends p hp).resolves, h.counters.countsResolved⟩

/-- Sends of one id are one send. -/
theorem Inv.eq_of_id {s : Sender} (h : s.Inv) {p q : Pending} (hp : p ∈ s.accepted)
    (hq : q ∈ s.accepted) (heq : p.id = q.id) : p = q :=
  List.inj_on_of_nodup_map h.accepted_nodup hp hq heq

/-! ## The steps -/

/-- Where the send of a report stands before it. -/
theorem Inv.reporting {s : Sender} (h : s.Inv) {code : Int32} (hcode : code ∈ s.held) :
    ∃ p ∈ s.accepted, s.owner code = some p.id ∧ (s.resultsOf p.id).length < p.partsTotal
      ∧ s.pending.get p.id = some (p.after (s.resultsOf p.id)).text := by
  obtain ⟨p, hp, howner⟩ := h.held_owner code hcode
  have hs := h.sends p hp
  have hpos : 0 < s.heldFor p.id := List.countP_pos_iff.2 ⟨code, hcode, by simp [howner]⟩
  have hlt : (s.resultsOf p.id).length < p.partsTotal := by
    have := hs.left
    omega
  exact ⟨p, hp, howner, hlt, (hs.opened hlt).1⟩

section Report

variable {s s' : Sender} {code : Int32} {id : String} {r : ℤ}

theorem ReportFrame.owner (h : ReportFrame s code id r s') (c : Int32) : s'.owner c = s.owner c := by
  unfold Sender.owner
  rw [h.intents]

theorem ReportFrame.resultsOf (h : ReportFrame s code id r s') (other : String) :
    s'.resultsOf other
      = if other = id then s.resultsOf other ++ [r] else s.resultsOf other := by
  unfold Sender.resultsOf
  rw [h.results, List.filter_append]
  split_ifs with heq
  · simp [heq]
  · simp [Ne.symm heq]

theorem ReportFrame.heldFor (h : ReportFrame s code id r s') (hcode : code ∈ s.held)
    (howner : s.owner code = some id) (other : String) :
    s.heldFor other = s'.heldFor other + if other = id then 1 else 0 := by
  unfold Sender.heldFor
  simp only [h.owner, h.held]
  rw [(List.perm_cons_erase hcode).countP_eq, List.countP_cons, howner]
  simp [eq_comm]

end Report

/-- A report keeps the invariant as soon as its own send stands where it should. -/
theorem Inv.of_reportFrame {s s' : Sender} (h : s.Inv) {code : Int32} (hcode : code ∈ s.held)
    {p : Pending} (hp : p ∈ s.accepted) (howner : s.owner code = some p.id) {r : ℤ}
    (hframe : ReportFrame s code p.id r s') (hsend : s'.SendInv p)
    (hother : ∀ other ≠ p.id, s'.resolutionsOf other = s.resolutionsOf other)
    (hresolved : ∀ q ∈ s'.resolved, q.id = p.id ∨ q ∈ s.resolved) (hcounters : s'.Counts) :
    s'.Inv where
  held_nodup := by
    rw [hframe.held]
    exact h.held_nodup.erase code
  held_owner c hc := by
    rw [hframe.held] at hc
    rw [hframe.history.2, hframe.owner]
    exact h.held_owner c (List.mem_of_mem_erase hc)
  accepted_nodup := by
    rw [hframe.history.2]
    exact h.accepted_nodup
  results_known x hx := by
    rw [hframe.results] at hx
    rw [hframe.history.1]
    rcases List.mem_append.1 hx with hx | hx
    · exact h.results_known x hx
    · rw [List.mem_singleton.1 hx]
      exact (h.sends p hp).known
  resolved_known q hq := by
    rw [hframe.history.1]
    rcases hresolved q hq with heq | hq
    · exact heq ▸ (h.sends p hp).known
    · exact h.resolved_known q hq
  sends q hq := by
    rw [hframe.history.2] at hq
    by_cases heq : q.id = p.id
    · exact h.eq_of_id hq hp heq ▸ hsend
    · refine (h.sends q hq).of_eq (hframe.history.1 ▸ List.Subset.refl _) ?_ ?_
        (hframe.pending _ heq) (hother _ heq)
      · have := hframe.heldFor hcode howner q.id
        rw [if_neg heq] at this
        omega
      · rw [hframe.resultsOf, if_neg heq]
  counters := hcounters

theorem inv_report {s : Sender} (h : s.Inv) {code : Int32} (hcode : code ∈ s.held) (r now : ℤ) :
    (step K s (.report code r now)).Inv := by
  obtain ⟨p, hp, howner, hlt, hentry⟩ := h.reporting hcode
  have hs := h.sends p hp
  have htally := hs.fresh.tally_after (s.resultsOf p.id ++ [r])
  obtain ⟨hframe, hcase⟩ := report_spec (K := K) howner hentry r now
  rw [← Pending.after_concat, htally.settled, htally.partsTotal] at hcase
  generalize step K s (.report code r now) = s' at hframe hcase
  have hresults : s'.resultsOf p.id = s.resultsOf p.id ++ [r] := by
    rw [hframe.resultsOf, if_pos rfl]
  have hlength : (s'.resultsOf p.id).length = (s.resultsOf p.id).length + 1 := by
    rw [hresults, List.length_append, List.length_singleton]
  have hleft : (s'.heldFor p.id : ℤ) + (s'.resultsOf p.id).length = p.partsTotal := by
    have hheld := hframe.heldFor hcode howner p.id
    rw [if_pos rfl] at hheld
    have := hs.left
    omega
  rw [← hresults] at hcase htally
  have hknown : p.id ∈ s'.ids := hframe.history.1 ▸ hs.known
  have hresolutions := (hs.opened hlt).2
  split_ifs at hcase with hwait
  · -- more parts are to report
    have hkeep : s'.resolved = s.resolved := by
      unfold resolved
      rw [hcase.outbox]
    have hsame : s'.resolutionsOf = s.resolutionsOf := by
      unfold resolutionsOf
      rw [hkeep]
    refine h.of_reportFrame hcode hp howner hframe ?_ (fun _ _ => by rw [hsame])
      (fun q hq => .inr (hkeep ▸ hq)) ?_
    · exact ⟨hs.fresh, hs.total_pos, hknown, hleft,
        fun _ => ⟨hcase.entry, by rw [hsame]; exact hresolutions⟩, fun heq => by omega⟩
    · unfold Counts
      rw [hcase.counters.1, hcase.counters.2, hkeep]
      exact h.counters
  · -- the last part of its send
    have hid : (p.after (s'.resultsOf p.id)).id = p.id := htally.request.1
    have hsame : ∀ other, s'.resolutionsOf other = s.resolutionsOf other
        ++ if other = p.id then [p.after (s'.resultsOf p.id)] else [] := by
      intro other
      unfold resolutionsOf
      rw [hcase.resolved, List.filter_append, List.filter_singleton, hid]
      by_cases heq : other = p.id <;> simp [heq, eq_comm]
    refine h.of_reportFrame hcode hp howner hframe ?_ (fun other hne => ?_) (fun q hq => ?_) ?_
    · refine ⟨hs.fresh, hs.total_pos, hknown, hleft, fun hlt' => absurd hlt' hwait,
        fun _ => ⟨hcase.entry, ?_⟩⟩
      rw [hsame, if_pos rfl, hresolutions, List.nil_append]
    · rw [hsame, if_neg hne, List.append_nil]
    · rw [hcase.resolved] at hq
      rcases List.mem_append.1 hq with hq | hq
      · exact .inr hq
      · exact .inl (List.mem_singleton.1 hq ▸ hid)
    · exact h.counters.settle hcase.resolved hcase.counters

section Request

variable {s s' : Sender} {id : String} {codes : List Int32}

theorem RequestFrame.resultsOf (h : RequestFrame s id codes s') (other : String) :
    s'.resultsOf other = s.resultsOf other := by
  unfold Sender.resultsOf
  rw [h.history.2]

theorem RequestFrame.resolutionsOf (h : RequestFrame s id codes s') (other : String) :
    s'.resolutionsOf other = s.resolutionsOf other := by
  unfold Sender.resolutionsOf
  rw [h.resolved]

/-- The intents held before keep their owners. -/
theorem RequestFrame.countP_held (h : RequestFrame s id codes s') (hfresh : ∀ c ∈ codes, c ∉ s.held)
    (other : String) :
    s.held.countP (fun c => s'.owner c = some other) = s.heldFor other :=
  List.countP_congr fun c hc => by rw [h.owner c fun hcodes => hfresh c hcodes hc]

/-- The new intents are all the new send's. -/
theorem Accepted.heldFor {p : Pending} (h : Accepted s id codes s' p)
    (hframe : RequestFrame s id codes s') (hfresh : ∀ c ∈ codes, c ∉ s.held) (other : String) :
    s'.heldFor other = s.heldFor other + if other = id then codes.length else 0 := by
  have hnew : codes.countP (fun c => s'.owner c = some other)
      = if other = id then codes.length else 0 := by
    split_ifs with heq
    · rw [List.countP_eq_length]
      intro c hc
      simp [h.owner c hc, heq]
    · rw [List.countP_eq_zero]
      intro c hc
      simp [h.owner c hc, Ne.symm heq]
  rw [Sender.heldFor, h.held, List.countP_append, hframe.countP_held hfresh, hnew]

end Request

/-- A send that is known stands where it stood. -/
theorem SendInv.of_request {s s' : Sender} {id : String} {codes : List Int32} {p : Pending}
    (h : s.SendInv p) (hframe : RequestFrame s id codes s') (hne : p.id ≠ id)
    (hheld : s'.heldFor p.id = s.heldFor p.id) : s'.SendInv p :=
  h.of_eq (hframe.history.1 ▸ List.Subset.refl _) hheld (hframe.resultsOf _)
    (hframe.pending _ hne) (hframe.resolutionsOf _)

/-- The invariant of a sender that has just been given a new id. -/
theorem Inv.of_requestSpec {s s' : Sender} (h : s.Inv) {id : String} {codes : List Int32}
    (hfresh : ∀ c ∈ codes, c ∉ s.held) (hnew : ∀ p ∈ s.accepted, p.id ≠ id)
    (hresults : s.resultsOf id = []) (hresolutions : s.resolutionsOf id = []) (hid : id ∈ s.ids)
    (hspec : RequestSpec s id codes s') : s'.Inv := by
  obtain ⟨hframe, hcase⟩ := hspec
  have howner : ∀ c ∈ s.held, s'.owner c = s.owner c := fun c hc =>
    hframe.owner c fun hcodes => hfresh c hcodes hc
  have hresults_known : ∀ r ∈ s'.results, r.1 ∈ s'.ids := by
    rw [hframe.history.1, hframe.history.2]
    exact h.results_known
  have hresolved_known : ∀ q ∈ s'.resolved, q.id ∈ s'.ids := by
    rw [hframe.history.1, hframe.resolved]
    exact h.resolved_known
  have hcounters : s'.Counts := by
    unfold Counts
    rw [hframe.counters.1, hframe.counters.2, hframe.resolved]
    exact h.counters
  rcases hcase with hrefused | ⟨p, hacc⟩
  · exact {
      held_nodup := hrefused.held ▸ h.held_nodup
      held_owner := fun c hc => by
        have hc' : c ∈ s.held := hrefused.held ▸ hc
        rw [hrefused.accepted, howner c hc']
        exact h.held_owner c hc'
      accepted_nodup := hrefused.accepted ▸ h.accepted_nodup
      results_known := hresults_known
      resolved_known := hresolved_known
      sends := fun p hp => by
        rw [hrefused.accepted] at hp
        refine (h.sends p hp).of_request hframe (hnew p hp) ?_
        rw [heldFor, hrefused.held, hframe.countP_held hfresh]
      counters := hcounters }
  · have hempty : s.heldFor id = 0 := by
      rw [heldFor, List.countP_eq_zero]
      intro c hc
      obtain ⟨q, hq, howner⟩ := h.held_owner c hc
      simp [howner, hnew q hq]
    exact {
      held_nodup := by
        rw [hacc.held]
        exact List.nodup_append.2 ⟨h.held_nodup, hacc.nodup, fun a ha b hb heq =>
          hfresh b hb (heq ▸ ha)⟩
      held_owner := fun c hc => by
        rw [hacc.accepted]
        rw [hacc.held, List.mem_append] at hc
        rcases hc with hc | hc
        · obtain ⟨q, hq, hown⟩ := h.held_owner c hc
          exact ⟨q, List.mem_append_left _ hq, (howner c hc).trans hown⟩
        · exact ⟨p, List.mem_append_right _ List.mem_cons_self, hacc.id_eq ▸ hacc.owner c hc⟩
      accepted_nodup := by
        rw [hacc.accepted, List.map_append, List.map_singleton]
        refine List.nodup_append.2 ⟨h.accepted_nodup, List.nodup_singleton _,
          fun a ha b hb heq => ?_⟩
        obtain ⟨q, hq, rfl⟩ := List.mem_map.1 ha
        exact hnew q hq (heq.trans ((List.mem_singleton.1 hb).trans hacc.id_eq))
      results_known := hresults_known
      resolved_known := hresolved_known
      sends := fun q hq => by
        rw [hacc.accepted] at hq
        rcases List.mem_append.1 hq with hq | hq
        · refine (h.sends q hq).of_request hframe (hnew q hq) ?_
          rw [hacc.heldFor hframe hfresh, if_neg (hnew q hq), Nat.add_zero]
        · obtain rfl := List.mem_singleton.1 hq
          have hheld : s'.heldFor q.id = codes.length := by
            rw [hacc.heldFor hframe hfresh, if_pos hacc.id_eq, hacc.id_eq, hempty, Nat.zero_add]
          have hres : s'.resultsOf q.id = [] := by rw [hframe.resultsOf, hacc.id_eq, hresults]
          have hpos := hacc.parts_pos
          have htotal := hacc.partsTotal
          exact {
            fresh := hacc.fresh
            total_pos := by omega
            known := by rw [hframe.history.1, hacc.id_eq]; exact hid
            left := by rw [hheld, hres, htotal]; rfl
            opened := fun _ => by
              rw [hres, hframe.resolutionsOf, hacc.id_eq]
              exact ⟨hacc.pending, hresolutions⟩
            closed := fun heq => by
              rw [hres] at heq
              simp only [List.length_nil] at heq
              omega }
      counters := hcounters }

theorem inv_send {s : Sender} (h : s.Inv) {request : Keepalive.SendRequest}
    (hnew : request.id ∉ s.ids) {env : SendEnvironment} (hfresh : ∀ c ∈ s.partCodes env, c ∉ s.held)
    (now : ℤ) : (step K s (.send request env now)).Inv := by
  have hgiven : Inv { s with ids := s.ids ++ [request.id] } := {
    held_nodup := h.held_nodup
    held_owner := h.held_owner
    accepted_nodup := h.accepted_nodup
    results_known := fun r hr => List.mem_append_left _ (h.results_known r hr)
    resolved_known := fun q hq => List.mem_append_left _ (h.resolved_known q hq)
    sends := fun p hp => (h.sends p hp).of_eq (List.subset_append_left _ _) rfl rfl rfl rfl
    counters := h.counters }
  have hother : ∀ id ∈ s.ids, id ≠ request.id := fun id hid heq => hnew (heq ▸ hid)
  refine hgiven.of_requestSpec hfresh (fun p hp => hother _ (h.sends p hp).known) ?_ ?_
    (List.mem_append_right _ List.mem_cons_self) (requestSpec_send _ request env now)
  · unfold resultsOf
    rw [List.filter_eq_nil_iff.2, List.map_nil]
    intro r hr
    simpa using hother _ (h.results_known r hr)
  · unfold resolutionsOf
    rw [List.filter_eq_nil_iff]
    intro q hq
    simpa using hother _ (h.resolved_known q hq)

theorem inv_step (s : Sender) (a : Action) (h : s.Inv) (ha : s.Legal a ∧ s.FreshCodes a) :
    (step K s a).Inv := by
  cases a with
  | send request env now => exact inv_send h ha.1 ha.2 now
  | report code r now => exact inv_report h ha.1 r now

/-! ## Runs -/

/-- A legal step moves no clock but that of the SIM of a send that succeeds with it. -/
theorem ownClock_step (s : Sender) (a : Action) (h : s.Inv) (ha : s.Legal a ∧ s.FreshCodes a) :
    s.OwnClock K a := by
  cases a with
  | send request env now =>
    exact (requestSpec_send (K := K) { s with ids := s.ids ++ [request.id] } request env
      now).1.clocks
  | report code r now =>
    obtain ⟨p, hp, howner, hlt, hentry⟩ := h.reporting ha.1
    have htally := (h.sends p hp).fresh.tally_after (s.resultsOf p.id ++ [r])
    obtain ⟨-, hcase⟩ := report_spec (K := K) howner hentry r now
    rw [← Pending.after_concat, htally.settled, htally.partsTotal, List.length_append,
      List.length_singleton] at hcase
    refine ⟨p, hp, howner, fun hc => ?_, fun hc => ?_⟩
    · rw [if_neg (by push_cast; have := hc.1; omega)] at hcase
      rw [hcase.clocks, if_neg (htally.failed_iff.2 hc.2), htally.request.2.2.2]
    · split_ifs at hcase with hwait
      · exact hcase.clocks
      · have hfail : 0 < (p.after (s.resultsOf p.id ++ [r])).partsFailed := by
          by_contra hn
          refine hc ⟨?_, htally.failed_iff.1 hn⟩
          push_cast at hwait
          omega
        rw [hcase.clocks, if_pos hfail]

/-- In every run in which the ids are distinct, a part reports once and no request code comes round
while its intent is out, every send is resolved once, with its last part, by a record of exactly its
own results. -/
theorem always_resolve (K : KotlinChars) (as : List Action)
    (h : Run.Meets (step K) (fun s a => s.Legal a ∧ s.FreshCodes a) start as) :
    Run.Always (step K) AllResolve start as ∧ Run.Meets (step K) (OwnClock K) start as :=
  ⟨Run.always_of_meets (fun _ => Inv.allResolve) inv_step as inv_start h,
    Run.meets_of_meets_of inv_step ownClock_step as inv_start h⟩

/-- A unit with a SIM of its own default. -/
def oneSim (parts : ℕ) : SendEnvironment := ⟨true, true, true, -1, 1, true, some parts, none⟩

/-- Two messages of two parts whose results cross; the second fails twice. -/
theorem crossing_resolve :
    Run.Always (step asciiChars) AllResolve start
        [.send ⟨"+15550100", "one", 2, "host", "a"⟩ (oneSim 2) 10,
          .send ⟨"900", "two", -1, "ui", "b"⟩ (oneSim 2) 20,
          .report 2 (-1) 30, .report 5 4 40, .report 3 (-1) 50, .report 4 99 60]
      ∧ Run.Meets (step asciiChars) (OwnClock asciiChars) start
        [.send ⟨"+15550100", "one", 2, "host", "a"⟩ (oneSim 2) 10,
          .send ⟨"900", "two", -1, "ui", "b"⟩ (oneSim 2) 20,
          .report 2 (-1) 30, .report 5 4 40, .report 3 (-1) 50, .report 4 99 60] :=
  always_resolve asciiChars _ (by decide +kernel)

/-! ## After `2 ^ 31` sends -/

/-- A message of one part. -/
def oneText (id : String) : Action := .send ⟨"900", "hi", -1, "host", id⟩ (oneSim 1) 0

theorem step_oneText (s : Sender) (id : String) : ∃ p : Pending,
    p.id = id ∧ p.partsTotal = 1 ∧ p.partsOk = 0 ∧ p.partsFailed = 0
      ∧ step asciiChars s (oneText id) = { s with
          requestCode := s.requestCode + 1
          pending := s.pending.set id p.text
          outbox := s.outbox ++ [.queued p 0]
          intents := s.intents.set (s.requestCode + 1) (id, 0)
          held := s.held ++ [s.requestCode + 1]
          ids := s.ids ++ [id]
          accepted := s.accepted ++ [p] } := by
  have hnumber : Numbers.sanitise asciiChars (some "900") = some "900" := by decide +kernel
  refine ⟨⟨id, "900", "host", 1, 1, 0, 0, 2, 0, []⟩, rfl, rfl, rfl, rfl, ?_⟩
  have hbody : ("hi" : String) ≠ "" := by decide
  have hchars : utf16Length "hi" = 2 := by decide +kernel
  simp [step, oneText, send, hnumber, hbody, oneSim, MAX_PARTS, submit, resultIntents, hchars,
    SendEnvironment.subId]

/-- A message of one part that is sent. -/
theorem oneText_sent (s : Sender) (id : String) (hcode : s.requestCode + 1 ∉ s.held) :
    ∃ s', Run.final (step asciiChars) s [oneText id, .report (s.requestCode + 1) (-1) 0] = s'
      ∧ s'.held = s.held ∧ s'.requestCode = s.requestCode + 1 ∧ s'.ids = s.ids ++ [id]
      ∧ s'.sentOk = s.sentOk + 1 ∧ s'.sentFailed = s.sentFailed
      ∧ s'.resolved.length = s.resolved.length + 1
      ∧ s.requestCode + 1 ∈ (step asciiChars s (oneText id)).held := by
  obtain ⟨p, -, htotal, hok, hfailed, hsent⟩ := step_oneText s id
  have howner : (step asciiChars s (oneText id)).owner (s.requestCode + 1) = some id := by
    rw [hsent]
    simp [owner]
  have hentry : (step asciiChars s (oneText id)).pending.get id = some p.text := by
    rw [hsent]
    simp
  obtain ⟨hframe, hcase⟩ := report_spec (K := asciiChars) howner hentry (-1) 0
  have hcount : p.count (-1) = { p with partsOk := p.partsOk + 1 } := if_pos rfl
  rw [hcount, if_neg (by simp [hok, hfailed, htotal])] at hcase
  refine ⟨_, rfl, ?_⟩
  rw [Run.final_cons, Run.final_cons, Run.final_nil, hframe.held, hframe.requestCode,
    hframe.history.1, hcase.resolved]
  have hcounters := hcase.counters
  rw [if_neg (by simp [hfailed])] at hcounters
  rw [hcounters.1, hcounters.2, hsent]
  refine ⟨?_, rfl, rfl, rfl, rfl, ?_, List.mem_append_right _ List.mem_cons_self⟩
  · rw [List.erase_append_right _ hcode]
    simp
  · simp [resolved, OutboxRecord.resolution]

def idOf (k : ℕ) : String := String.ofList (List.replicate k 'a')

theorem idOf_ne (k : ℕ) {id : String} (h : ∃ c ∈ id.toList, c ≠ 'a') : idOf k ≠ id := by
  rintro rfl
  obtain ⟨c, hc, hne⟩ := h
  rw [idOf, String.toList_ofList] at hc
  exact hne (List.eq_of_mem_replicate hc)

/-- `n` messages of one part from a request code on, each sent before the next is asked for. -/
def oneTexts (code : Int32) (k : ℕ) : ℕ → List Action
  | 0 => []
  | n + 1 => oneText (idOf k) :: .report (code + 1) (-1) 0 :: oneTexts (code + 1) (k + 1) n

theorem oneTexts_sent : ∀ (n k : ℕ) (s : Sender), (∀ c ∈ nextCodes s.requestCode n, c ∉ s.held) →
    (∀ i ≥ k, idOf i ∉ s.ids) →
    ∃ s', Run.final (step asciiChars) s (oneTexts s.requestCode k n) = s'
      ∧ s'.held = s.held ∧ s'.requestCode = s.requestCode + Int32.ofNat n
      ∧ (∀ id ∈ s'.ids, id ∈ s.ids ∨ ∃ i, id = idOf i)
      ∧ s'.sentOk = s.sentOk + Int32.ofNat n ∧ s'.sentFailed = s.sentFailed
      ∧ s'.resolved.length = s.resolved.length + n
      ∧ ∀ as, Run.Meets (step asciiChars) Legal s' as →
        Run.Meets (step asciiChars) Legal s (oneTexts s.requestCode k n ++ as)
  | 0, k, s, _, _ => ⟨s, rfl, rfl, (Int32.add_zero _).symm, fun _ h => .inl h,
      (Int32.add_zero _).symm, rfl, rfl, fun _ h => h⟩
  | n + 1, k, s, hcodes, hids => by
    rw [nextCodes_succ, List.forall_mem_cons] at hcodes
    obtain ⟨t, ht, hheld, hcode, htids, hok, hfailed, hresolved, hmem⟩ :=
      oneText_sent s (idOf k) hcodes.1
    have hnew : ∀ i ≥ k + 1, idOf i ∉ t.ids := by
      intro i hi hin
      rw [htids, List.mem_append, List.mem_singleton] at hin
      refine hin.elim (hids i (by omega)) fun heq => ?_
      have hlength := congrArg (fun id : String => id.toList.length) heq
      simp only [idOf, String.toList_ofList, List.length_replicate] at hlength
      omega
    obtain ⟨s', hs', h1, h2, h3, h4, h5, h6, h7⟩ := oneTexts_sent n (k + 1) t
      (by rw [hcode, hheld]; exact hcodes.2) hnew
    rw [hcode] at hs' h7
    rw [← ht] at h7
    refine ⟨s', ?_, h1.trans hheld, ?_, fun id hid => ?_, ?_, h5.trans hfailed, ?_,
      fun as has => ⟨hids k le_rfl, hmem, h7 as has⟩⟩
    · rw [← hs', ← ht]
      rfl
    · rw [h2, hcode, Int32.ofNat_add, Int32.add_comm (Int32.ofNat n), ← Int32.add_assoc]
      rfl
    · rcases h3 id hid with hin | hin
      · rw [htids, List.mem_append, List.mem_singleton] at hin
        exact hin.imp_right fun heq => ⟨k, heq⟩
      · exact .inr hin
    · rw [h4, hok, Int32.ofNat_add, Int32.add_comm (Int32.ofNat n), ← Int32.add_assoc]
      rfl
    · rw [h6, hresolved, Nat.add_assoc, Nat.add_comm 1]

/-- A message of one part stays out while all the other codes are given to messages that are sent,
and then its code is given to one more. -/
def codeReused (n : ℕ) : List Action :=
  oneText "b" :: (oneTexts 2 0 n ++ [oneText "c", .report 2 (-1) 0, .report 2 (-1) 0])

theorem not_exact_of_sends {n : ℕ} (hn : 2 ^ 31 ≤ n) :
    Run.Meets (step asciiChars) Legal start (oneTexts 1 0 n)
      ∧ ¬ Run.Always (step asciiChars)
        (fun s => s.sentOk.toInt + s.sentFailed.toInt = s.resolved.length) start
        (oneTexts 1 0 n) := by
  obtain ⟨s', hs', -, -, -, -, hfailed, hresolved, hmeets⟩ := oneTexts_sent n 0 start
    (by simp [start]) (by simp [start])
  have hlegal := hmeets [] trivial
  rw [List.append_nil] at hlegal
  refine ⟨hlegal, fun h => ?_⟩
  have hexact := h.final
  rw [show oneTexts 1 0 n = oneTexts start.requestCode 0 n from rfl, hs', hfailed, hresolved]
    at hexact
  have hlt := s'.sentOk.toInt_lt
  simp only [start, resolved, List.filterMap_nil, List.length_nil, Int32.toInt_zero] at hexact
  push_cast at hexact
  omega

/-- A result is the one of the send that the intent names now, whatever it named before. -/
theorem report_frame {s : Sender} {code : Int32} {id : String} (howner : s.owner code = some id)
    (r now : ℤ) : (step K s (.report code r now)).results = s.results ++ [(id, r)]
      ∧ (step K s (.report code r now)).held = s.held.erase code
      ∧ (step K s (.report code r now)).owner code = some id
      ∧ (step K s (.report code r now)).accepted = s.accepted := by
  have hsame : ∀ t : Sender, t.intents = s.intents → t.owner code = some id := fun t ht => by
    rw [← howner, owner, ht]
    rfl
  simp only [step, howner, onPartResult]
  split
  · exact ⟨rfl, rfl, hsame _ rfl, rfl⟩
  · split_ifs
    · exact ⟨rfl, rfl, hsame _ rfl, rfl⟩
    · exact ⟨rfl, rfl, hsame _ rfl, rfl⟩
    · exact ⟨rfl, rfl, hsame _ rfl, rfl⟩

theorem not_resolves_of_reuse {n : ℕ} (hfresh : ∀ c ∈ nextCodes 2 n, c ∉ ([2] : List Int32))
    (hround : (2 : Int32) + Int32.ofNat n + 1 = 2) :
    Run.Meets (step asciiChars) Legal start (codeReused n)
      ∧ ¬ Run.Always (step asciiChars) (fun s => ∀ p ∈ s.accepted, s.Resolves p) start
        (codeReused n) := by
  obtain ⟨p₁, -, -, -, -, hb⟩ := step_oneText start "b"
  have hidOf : ∀ i, idOf i ≠ "b" ∧ idOf i ≠ "c" := fun i =>
    ⟨idOf_ne i ⟨'b', by decide, by decide⟩, idOf_ne i ⟨'c', by decide, by decide⟩⟩
  obtain ⟨s, hs, hheld, hcode, hids, -, -, -, hmeets⟩ :=
    oneTexts_sent n 0 (step asciiChars start (oneText "b"))
      (by rw [hb]; exact hfresh) (by rw [hb]; simp [start, (hidOf _).1])
  rw [hb] at hheld hcode hids
  obtain ⟨p, hid, htotal, -, -, hc⟩ := step_oneText s "c"
  have hnext : s.requestCode + 1 = 2 := by rw [hcode]; exact hround
  rw [hnext] at hc
  have howner : (step asciiChars s (oneText "c")).owner 2 = some "c" := by rw [hc]; simp [owner]
  obtain ⟨hresults, hheld', howner', haccepted⟩ := report_frame (K := asciiChars) howner (-1) 0
  obtain ⟨hresults', -, -, haccepted'⟩ := report_frame (K := asciiChars) howner' (-1) 0
  have htwice : (step asciiChars s (oneText "c")).held = [2, 2] := by
    rw [hc, hheld]
    rfl
  have hfinal : Run.final (step asciiChars) start (codeReused n)
      = Run.final (step asciiChars) s [oneText "c", .report 2 (-1) 0, .report 2 (-1) 0] := by
    rw [codeReused, Run.final_cons, Run.final_append, ← hs, hb]
    rfl
  have hnew : "c" ∉ s.ids := by
    intro hin
    rcases hids "c" hin with hin | ⟨i, hi⟩
    · simp [start] at hin
    · exact (hidOf i).2 hi.symm
  refine ⟨⟨by simp [start, Legal, oneText], ?_⟩, fun h => ?_⟩
  · have hrest := hmeets [oneText "c", .report 2 (-1) 0, .report 2 (-1) 0]
    rw [hb] at hrest ⊢
    refine hrest ⟨hnew, ?_, ?_, trivial⟩
    · show (2 : Int32) ∈ (step asciiChars s (oneText "c")).held
      rw [htwice]
      exact List.mem_cons_self
    · show (2 : Int32) ∈ (step asciiChars (step asciiChars s (oneText "c")) _).held
      rw [hheld', htwice]
      decide
  · have hall := h.final
    rw [hfinal] at hall
    simp only [Run.final_cons, Run.final_nil] at hall
    have hresolve := (hall p (by rw [haccepted', haccepted, hc]; simp)).length_le
    rw [resultsOf, hresults', hresults, hid, htotal] at hresolve
    simp at hresolve
    omega

/-- The counters count to `2 ^ 31`, and a request code comes round after `2 ^ 32`. -/
theorem counters_and_codes_wrap :
    (Run.Meets (step asciiChars) Legal start (oneTexts 1 0 (2 ^ 31))
      ∧ ¬ Run.Always (step asciiChars)
        (fun s => s.sentOk.toInt + s.sentFailed.toInt = s.resolved.length) start
        (oneTexts 1 0 (2 ^ 31)))
    ∧ Run.Meets (step asciiChars) Legal start (codeReused (2 ^ 32 - 1))
      ∧ ¬ Run.Always (step asciiChars) (fun s => ∀ p ∈ s.accepted, s.Resolves p) start
        (codeReused (2 ^ 32 - 1)) := by
  refine ⟨not_exact_of_sends le_rfl, not_resolves_of_reuse (fun c hc hmem => ?_) (by decide)⟩
  obtain ⟨i, hi, rfl⟩ := List.mem_map.1 hc
  rw [List.mem_range] at hi
  rw [List.mem_singleton, Int32.add_eq_left] at hmem
  have hmod := congrArg (fun c : Int32 => c.toBitVec.toNat) hmem
  simp at hmod
  omega

end Sender

end Rackphone
