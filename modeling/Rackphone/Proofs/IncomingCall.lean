import Rackphone.IncomingCall
import Rackphone.Proofs.CallReceiver

/-!
# What is logged of one call

A tracked call keeps the first number a ringing broadcast gives it, also one that comes after it
was answered, when another call waits; and the first off-hook time that is not zero.
-/

namespace Rackphone

open CallReceiver (callerOf callerOf_ne address)
open Broadcast (callers offhooks received PhoneIdle)

/-- The first name that is known, if there is one. -/
def firstKnown (names : List String) : String :=
  (names.find? fun name => name ≠ UNKNOWN_CALLER).getD UNKNOWN_CALLER

theorem firstKnown_cons_unknown (names : List String) :
    firstKnown (UNKNOWN_CALLER :: names) = firstKnown names := by
  simp [firstKnown]

theorem firstKnown_cons {name : String} (h : name ≠ UNKNOWN_CALLER) (names : List String) :
    firstKnown (name :: names) = name := by
  simp [firstKnown, h]

theorem firstKnown_eq_unknown {names : List String} :
    firstKnown names = UNKNOWN_CALLER ↔ ∀ name ∈ names, name = UNKNOWN_CALLER := by
  induction names with
  | nil => simp [firstKnown]
  | cons name names ih =>
    by_cases h : name = UNKNOWN_CALLER
    · subst h
      simp [firstKnown_cons_unknown, ih]
    · simp [firstKnown_cons h, h]

theorem firstKnown_mem {names : List String} (h : firstKnown names ≠ UNKNOWN_CALLER) :
    firstKnown names ∈ names := by
  induction names with
  | nil => exact absurd rfl h
  | cons name names ih =>
    by_cases hname : name = UNKNOWN_CALLER
    · subst hname
      rw [firstKnown_cons_unknown] at h ⊢
      exact List.mem_cons_of_mem _ (ih h)
    · rw [firstKnown_cons hname]
      exact List.mem_cons_self

theorem firstKnown_append {names : List String} (h : ∃ name ∈ names, name ≠ UNKNOWN_CALLER)
    (more : List String) : firstKnown (names ++ more) = firstKnown names := by
  obtain ⟨name, hname, hknown⟩ := h
  have hsome : (names.find? fun name => name ≠ UNKNOWN_CALLER).isSome :=
    List.find?_isSome.2 ⟨name, hname, by simpa using hknown⟩
  rw [firstKnown, List.find?_append, Option.or_of_isSome hsome]
  rfl

/-- The first time that is not zero. -/
def firstSet (times : List ℤ) : ℤ := (times.find? fun now => now ≠ 0).getD 0

theorem firstSet_cons_zero (times : List ℤ) : firstSet (0 :: times) = firstSet times := by
  simp [firstSet]

theorem firstSet_cons {now : ℤ} (h : now ≠ 0) (times : List ℤ) :
    firstSet (now :: times) = now := by
  simp [firstSet, h]

namespace CallReceiver

variable {K : KotlinChars} {s : CallReceiver}

/-- What the receiver keeps of a call that is in progress. -/
structure Tracks (s : CallReceiver) (caller : String) (since answeredAt sub : ℤ) (callId : String)
    (recorded : List CallEvent) : Prop where
  collects : s.collectCalls = true
  caller_ne : caller ≠ ""
  ringingFrom : s.ringingFrom = caller
  ringingSinceMs : s.ringingSinceMs = since
  callAnsweredMs : s.callAnsweredMs = answeredAt
  ringingSub : s.ringingSub = sub
  callId_eq : s.callId = callId
  recorded_eq : s.recorded = recorded

variable {caller callId : String} {since answeredAt sub : ℤ} {recorded : List CallEvent}

def ringingRecord (caller : String) (since sub : ℤ) (callId : String) : CallEvent :=
  ⟨KIND_CALL, address caller, since, "ringing", none, callId, sub⟩

/-- The further ringing record, where a call that has no number gets one. -/
def lateRecords (caller : String) (names : List String) (since sub : ℤ) (callId : String) :
    List CallEvent :=
  if caller = UNKNOWN_CALLER ∧ firstKnown names ≠ UNKNOWN_CALLER then
    [ringingRecord (firstKnown names) since sub callId]
  else []

theorem lateRecords_known (h : caller ≠ UNKNOWN_CALLER) (names : List String) :
    lateRecords caller names since sub callId = [] := by
  simp [lateRecords, h]

theorem step_ringing (h : s.collectCalls = true) (b : RingingBroadcast) :
    s.step K (.ringing b) = { s.startRinging K b with ended := s.ended && !s.collectCalls } := by
  rw [step, onReceive, if_pos h]

theorem Tracks.late (h : Tracks s UNKNOWN_CALLER since answeredAt sub callId recorded)
    {b : RingingBroadcast} (hb : callerOf K b ≠ UNKNOWN_CALLER) :
    Tracks (s.step K (.ringing b)) (callerOf K b) since answeredAt sub callId
      (recorded ++ [ringingRecord (callerOf K b) since sub callId]) := by
  have hne := @callerOf_ne K b
  have hlate : namesCallerLate (s.ringingFrom ≠ "") s.ringingFrom
      (if callerOf K b = UNKNOWN_CALLER then none else some (callerOf K b)) = true := by
    rw [if_neg hb, namesCallerLate, h.ringingFrom]
    simp [hne, UNKNOWN_CALLER]
  rw [step_ringing h.collects, startRinging]
  dsimp only
  rw [if_pos hlate, writeCurrentCall, if_neg hne]
  exact ⟨h.collects, hne, rfl, h.ringingSinceMs, h.callAnsweredMs, h.ringingSub, h.callId_eq, by
    simp [recordRinging, h.recorded_eq, h.ringingSinceMs, h.ringingSub, h.callId_eq, ringingRecord]⟩

theorem Tracks.again (h : Tracks s caller since answeredAt sub callId recorded)
    {b : RingingBroadcast} (hb : caller = UNKNOWN_CALLER → callerOf K b = UNKNOWN_CALLER) :
    Tracks (s.step K (.ringing b)) caller since answeredAt sub callId recorded := by
  have hlate : ¬ namesCallerLate (s.ringingFrom ≠ "") s.ringingFrom
      (if callerOf K b = UNKNOWN_CALLER then none else some (callerOf K b)) = true := by
    by_cases hcaller : caller = UNKNOWN_CALLER
    · simp [namesCallerLate, hb hcaller]
    · simp [namesCallerLate, h.ringingFrom, hcaller]
  have hnew : ¬ shouldRecordRinging (s.ringingFrom ≠ "") = true := by
    simp [shouldRecordRinging, h.ringingFrom, h.caller_ne]
  rw [step_ringing h.collects, startRinging]
  dsimp only
  rw [if_neg hlate, if_neg hnew]
  exact ⟨h.collects, h.caller_ne, h.ringingFrom, h.ringingSinceMs, h.callAnsweredMs, h.ringingSub,
    h.callId_eq, h.recorded_eq⟩

theorem Tracks.offhook (h : Tracks s caller since answeredAt sub callId recorded) (now : ℤ) :
    Tracks (s.step K (.offhook now)) caller since (firstSet [answeredAt, now]) sub callId
      recorded := by
  have hring : s.ringingFrom ≠ "" := h.ringingFrom ▸ h.caller_ne
  simp only [step, onReceive, h.collects, hring, h.callAnsweredMs, ne_eq, not_false_eq_true,
    true_and]
  by_cases ht : answeredAt = 0
  · subst ht
    rw [if_pos rfl, firstSet_cons_zero]
    refine ⟨rfl, h.caller_ne, h.ringingFrom, h.ringingSinceMs, ?_, h.ringingSub, h.callId_eq,
      h.recorded_eq⟩
    by_cases hnow : now = 0
    · simp [hnow, firstSet]
    · exact (firstSet_cons hnow []).symm
  · rw [if_neg ht, firstSet_cons ht]
    exact h

/-- A call in progress, through any broadcasts that are not idle. -/
theorem Tracks.run (K : KotlinChars) : ∀ (rest : List Broadcast), (∀ now, .idle now ∉ rest) →
    ∀ {s : CallReceiver} {caller : String} {answeredAt : ℤ} {recorded : List CallEvent},
      Tracks s caller since answeredAt sub callId recorded →
        Tracks (Run.final (step K) s (rest.map Broadcast.toAction))
          (firstKnown (caller :: callers K rest)) since (firstSet (answeredAt :: offhooks rest)) sub
          callId (recorded ++ lateRecords caller (callers K rest) since sub callId)
  | [], _, s, caller, answeredAt, recorded, h => by
    have hcaller : firstKnown [caller] = caller := by
      by_cases hc : caller = UNKNOWN_CALLER
      · subst hc
        rfl
      · exact firstKnown_cons hc []
    have ht : firstSet [answeredAt] = answeredAt := by
      by_cases ht : answeredAt = 0
      · subst ht
        rfl
      · exact firstSet_cons ht []
    have hlate : lateRecords caller [] since sub callId = [] := by simp [lateRecords, firstKnown]
    simpa [callers, offhooks, hcaller, ht, hlate] using h
  | .ringing b :: rest, hidle, s, caller, answeredAt, recorded, h => by
    have hrest : ∀ now, .idle now ∉ rest := fun now hm => hidle now (List.mem_cons_of_mem _ hm)
    have hcallers : callers K (.ringing b :: rest) = callerOf K b :: callers K rest := rfl
    have hoffhooks : offhooks (.ringing b :: rest) = offhooks rest := rfl
    rw [List.map_cons, Run.final_cons, hcallers, hoffhooks]
    by_cases hlate : caller = UNKNOWN_CALLER ∧ callerOf K b ≠ UNKNOWN_CALLER
    · obtain ⟨rfl, hb⟩ := hlate
      have ih := Tracks.run K rest hrest (h.late hb)
      rw [firstKnown_cons hb, lateRecords_known hb, List.append_nil] at ih
      rw [firstKnown_cons_unknown, firstKnown_cons hb, lateRecords, firstKnown_cons hb,
        if_pos ⟨rfl, hb⟩]
      exact ih
    · have hb : caller = UNKNOWN_CALLER → callerOf K b = UNKNOWN_CALLER := fun hc => by
        by_contra hne
        exact hlate ⟨hc, hne⟩
      have ih := Tracks.run K rest hrest (h.again hb)
      by_cases hc : caller = UNKNOWN_CALLER
      · subst hc
        rw [hb rfl, lateRecords, firstKnown_cons_unknown, firstKnown_cons_unknown]
        rw [lateRecords, firstKnown_cons_unknown] at ih
        exact ih
      · rw [firstKnown_cons hc, lateRecords_known hc] at ih ⊢
        exact ih
  | .offhook now :: rest, hidle, s, caller, answeredAt, recorded, h => by
    have hrest : ∀ now, .idle now ∉ rest := fun now hm => hidle now (List.mem_cons_of_mem _ hm)
    have hnext : Tracks (s.step K (.offhook now)) caller since (firstSet [answeredAt, now]) sub
      callId recorded := h.offhook now
    have ih := Tracks.run K rest hrest hnext
    have ht : firstSet (firstSet [answeredAt, now] :: offhooks rest)
        = firstSet (answeredAt :: now :: offhooks rest) := by
      by_cases ht : answeredAt = 0
      · subst ht
        rw [firstSet_cons_zero, firstSet_cons_zero]
        by_cases hnow : now = 0
        · subst hnow
          rw [firstSet_cons_zero, firstSet_cons_zero]
          rfl
        · rw [firstSet_cons hnow, firstSet_cons hnow]
      · rw [firstSet_cons ht, firstSet_cons ht, firstSet_cons ht]
    rw [ht] at ih
    exact ih
  | .idle now :: rest, hidle, _, _, _, _, _ => absurd List.mem_cons_self (hidle now)

theorem collectCalls_step (s : CallReceiver) (b : Broadcast) :
    (s.step K b.toAction).collectCalls = s.collectCalls := by
  cases b with
  | ringing b =>
    simp only [Broadcast.toAction, step, onReceive, startRinging, recordRinging, writeCurrentCall,
      persistCallId]
    split_ifs <;> rfl
  | offhook now =>
    simp only [Broadcast.toAction, step, onReceive]
    split_ifs <;> rfl
  | idle now =>
    simp only [Broadcast.toAction, step, onReceive, finish, writeCurrentCall, persistCallId]
    split_ifs <;> rfl

theorem collectCalls_received (bs : List Broadcast) : (received K bs).collectCalls = true := by
  have h : ∀ (bs : List Broadcast) (s : CallReceiver), s.collectCalls = true →
      (Run.final (step K) s (bs.map Broadcast.toAction)).collectCalls = true := by
    intro bs
    induction bs with
    | nil => exact fun _ hs => hs
    | cons b bs ih => exact fun s hs => ih _ ((collectCalls_step s b).trans hs)
  exact h bs start rfl

theorem received_append (before after : List Broadcast) : received K (before ++ after)
    = Run.final (step K) (received K before) (after.map Broadcast.toAction) := by
  rw [received, List.map_append, Run.final_append]
  rfl

/-- An idle phone has nothing of an earlier call. -/
theorem clear_received {before : List Broadcast} (h : PhoneIdle before) :
    (received K before).Clear := by
  rcases h with rfl | ⟨before, now, rfl⟩
  · exact inv_start.clear rfl
  · have hstep : received K (before ++ [.idle now]) = (received K before).step K (.idle now) :=
      received_append before [.idle now]
    rw [hstep, step, onReceive, if_pos (collectCalls_received before)]
    exact (clear_finish _ now).frame true

theorem Clear.tracks (h : s.Clear) (hs : s.collectCalls = true) (b : RingingBroadcast) :
    Tracks (s.step K (.ringing b)) (callerOf K b) b.now 0 (ringingSubOf b) b.generated
      (s.recorded ++ [ringingRecord (callerOf K b) b.now (ringingSubOf b) b.generated]) := by
  have hcaller := @callerOf_ne K b
  have hlate : ¬ namesCallerLate (s.ringingFrom ≠ "") s.ringingFrom
      (if callerOf K b = UNKNOWN_CALLER then none else some (callerOf K b)) = true := by
    simp [namesCallerLate, h.ringingFrom]
  have hnew : shouldRecordRinging (s.ringingFrom ≠ "") = true := by
    simp [shouldRecordRinging, h.ringingFrom]
  have hid : correlatedCallId s.callId b.generated = b.generated := by
    simp [correlatedCallId, h.callId]
  rw [step_ringing hs, startRinging]
  dsimp only
  rw [if_neg hlate, if_pos hnew, writeCurrentCall, if_neg hcaller, hid]
  exact ⟨hs, hcaller, rfl, rfl, rfl, rfl, rfl, rfl⟩

/-- The record of a call that is over. -/
def outcomeRecord (caller : String) (since answeredAt sub : ℤ) (callId : String) (now : ℤ) :
    CallEvent where
  kind := KIND_CALL
  address := address caller
  ts := if since > 0 then since else now
  direction := if answeredAt > 0 then "in" else "missed"
  duration := some (if answeredAt > 0 then (now - answeredAt).tdiv 1000 else 0)
  callId := callId
  sub := sub

theorem Tracks.finish (h : Tracks s caller since answeredAt sub callId recorded) (now : ℤ) :
    (s.step K (.idle now)).recorded
      = recorded ++ [outcomeRecord caller since answeredAt sub callId now] := by
  have hring : s.ringingFrom ≠ "" := h.ringingFrom ▸ h.caller_ne
  rw [step, onReceive, if_pos h.collects, CallReceiver.finish]
  dsimp only
  rw [if_neg hring]
  simp [outcomeRecord, h.ringingFrom, h.ringingSinceMs, h.callAnsweredMs, h.ringingSub,
    h.callId_eq, h.recorded_eq]

end CallReceiver

namespace IncomingCall

open CallReceiver

variable (K : KotlinChars) (c : IncomingCall)

/-- The number the call is logged under. -/
def caller : String := firstKnown (callerOf K c.first :: callers K c.rest)

def ringing : CallEvent :=
  ringingRecord (callerOf K c.first) c.first.now (ringingSubOf c.first) c.first.generated

def late : List CallEvent :=
  lateRecords (callerOf K c.first) (callers K c.rest) c.first.now (ringingSubOf c.first)
    c.first.generated

def outcome : CallEvent :=
  outcomeRecord (c.caller K) c.first.now (firstSet (offhooks c.rest)) (ringingSubOf c.first)
    c.first.generated c.ended

/-- What the receiver records of a call that rang from an idle phone. -/
theorem recorded_call {before : List Broadcast} (h : PhoneIdle before) :
    (received K (before ++ c.broadcasts)).recorded
      = (received K before).recorded ++ (c.ringing K :: (c.late K ++ [c.outcome K])) := by
  have hfirst := (clear_received (K := K) h).tracks (K := K) (collectCalls_received before) c.first
  have hrest := (Tracks.run K c.rest c.inProgress hfirst).finish (K := K) c.ended
  rw [firstSet_cons_zero] at hrest
  rw [received_append, broadcasts, List.map_cons, List.map_append, Run.final_cons,
    Run.final_append]
  refine hrest.trans ?_
  simp [ringing, late, outcome, caller]

theorem callers_append (before after : List Broadcast) :
    callers K (before ++ after) = callers K before ++ callers K after := List.filterMap_append

theorem names_eq : callerOf K c.first :: callers K c.rest
    = c.announced K ++ callers K (c.rest.dropWhile fun b => !b.isOffhook) := by
  rw [announced, List.cons_append, ← callers_append, List.takeWhile_append_dropWhile]

theorem address_ne {name : String} (h : name ≠ UNKNOWN_CALLER) : address name = name := by
  simp [address, h]

theorem caller_ne_empty : c.caller K ≠ "" := by
  by_cases h : c.caller K = UNKNOWN_CALLER
  · rw [h]
    decide
  · have hmem := firstKnown_mem h
    rw [← caller] at hmem
    rcases List.mem_cons.1 hmem with hfirst | hrest
    · exact hfirst ▸ callerOf_ne _
    · obtain ⟨b, -, hb⟩ := List.mem_filterMap.1 hrest
      cases b with
      | ringing b =>
        have : callerOf K b = c.caller K := by simpa using hb
        exact this ▸ callerOf_ne b
      | offhook now => simp at hb
      | idle now => simp at hb

/-- The number was announced in time exactly where it is logged as it should be. -/
theorem announced_iff : (address (c.caller K) ≠ "" → address (c.caller K) ∈ c.announced K)
    ↔ c.NamedInTime K := by
  have hnames := c.names_eq K
  constructor
  · intro h
    by_cases hcaller : c.caller K = UNKNOWN_CALLER
    · exact .inr fun name hname =>
        firstKnown_eq_unknown.1 hcaller name (List.mem_cons_of_mem _ hname)
    · rw [address_ne hcaller] at h
      exact .inl ⟨_, h (c.caller_ne_empty K), hcaller⟩
  · rintro (hearly | hlate) hne
    · have hcaller : c.caller K = firstKnown (c.announced K) := by
        rw [caller, hnames, firstKnown_append hearly]
      have hknown : firstKnown (c.announced K) ≠ UNKNOWN_CALLER := fun hu => by
        obtain ⟨name, hname, hk⟩ := hearly
        exact hk (firstKnown_eq_unknown.1 hu name hname)
      rw [hcaller, address_ne hknown]
      exact firstKnown_mem hknown
    · by_cases hfirst : callerOf K c.first = UNKNOWN_CALLER
      · have hcaller : c.caller K = UNKNOWN_CALLER :=
          firstKnown_eq_unknown.2 (List.forall_mem_cons.2 ⟨hfirst, hlate⟩)
        rw [hcaller] at hne
        exact absurd rfl hne
      · have hcaller : c.caller K = callerOf K c.first := firstKnown_cons hfirst _
        rw [hcaller, address_ne hfirst]
        exact List.mem_cons_self

theorem wentOffhook_iff : c.WentOffhook ↔ offhooks c.rest ≠ [] := by
  rw [ne_eq, offhooks, List.filterMap_eq_nil_iff, WentOffhook]
  push Not
  refine exists_congr fun b => and_congr_right fun _ => ?_
  cases b <;> simp [Broadcast.isOffhook]

/-- The outcome says whether the call was answered exactly where the clock was set. -/
theorem direction_iff : (c.outcome K).direction = (if c.WentOffhook then "in" else "missed")
    ↔ c.ClockSet := by
  have hdir : (c.outcome K).direction
      = if firstSet (offhooks c.rest) > 0 then "in" else "missed" := rfl
  have hset : 0 < firstSet (offhooks c.rest)
      ↔ ∃ now, (offhooks c.rest).find? (fun now => now ≠ 0) = some now ∧ 0 < now := by
    rw [firstSet]
    cases (offhooks c.rest).find? fun now => now ≠ 0 <;> simp
  have hwent := c.wentOffhook_iff
  rw [hdir, ClockSet, ← hset]
  by_cases hnil : offhooks c.rest = []
  · have hno : ¬ c.WentOffhook := fun h => hwent.1 h hnil
    simp [hnil, hno, firstSet]
  · have hyes : c.WentOffhook := hwent.2 hnil
    by_cases hpos : 0 < firstSet (offhooks c.rest) <;> simp [hnil, hyes, hpos]

theorem late_cases : c.late K = [] ∨ ∃ r : CallEvent, c.late K = [r] ∧ r.direction = "ringing"
    ∧ r.address ≠ "" ∧ r.address = (c.outcome K).address ∧ r.kind = KIND_CALL
    ∧ r.callId = c.first.generated := by
  unfold late lateRecords
  split_ifs with h
  · have hcaller : firstKnown (callers K c.rest) = c.caller K := by
      rw [caller, h.1, firstKnown_cons_unknown]
    have hne : address (c.caller K) ≠ "" := by
      rw [address_ne (hcaller ▸ h.2)]
      exact c.caller_ne_empty K
    rw [hcaller]
    exact .inr ⟨_, rfl, rfl, hne, rfl, rfl, rfl⟩
  · exact .inl rfl

theorem loggedOnce_iff : c.LoggedOnce K (c.ringing K :: (c.late K ++ [c.outcome K]))
    ↔ c.NamedInTime K ∧ c.ClockSet := by
  rw [← c.announced_iff K, ← c.direction_iff K]
  constructor
  · rintro ⟨ringing, further, outcome, hrecords, -, -, hdir, -, hnumber⟩
    have hlast : c.outcome K = outcome := by
      have := congrArg List.getLast? (List.cons.inj hrecords).2
      simpa using this
    rw [← hlast] at hdir hnumber
    exact ⟨hnumber, hdir⟩
  · rintro ⟨hnumber, hdir⟩
    rcases c.late_cases K with hlate | ⟨r, hlate, hrdir, hrne, hraddr, hrkind, hrid⟩
    · refine ⟨c.ringing K, none, c.outcome K, by rw [hlate]; rfl, rfl, by simp, hdir, ?_, hnumber⟩
      rw [hlate]
      intro r hr
      rcases List.mem_cons.1 hr with rfl | hr
      · exact ⟨rfl, rfl⟩
      · rw [List.mem_singleton.1 hr]
        exact ⟨rfl, rfl⟩
    · refine ⟨c.ringing K, some r, c.outcome K, by rw [hlate]; rfl, rfl, ?_, hdir, ?_, hnumber⟩
      · rintro r' hr'
        obtain rfl := Option.some.inj hr'
        exact ⟨hrdir, hrne, hraddr⟩
      · rw [hlate]
        intro r' hr'
        rcases List.mem_cons.1 hr' with rfl | hr'
        · exact ⟨rfl, rfl⟩
        · rcases List.mem_cons.1 hr' with rfl | hr'
          · exact ⟨hrkind, hrid⟩
          · rw [List.mem_singleton.1 hr']
            exact ⟨rfl, rfl⟩

/-- The calls that are logged once and against their own caller. -/
theorem logged_once_iff {before : List Broadcast} (h : PhoneIdle before) :
    (∃ records, (received K (before ++ c.broadcasts)).recorded
        = (received K before).recorded ++ records ∧ c.LoggedOnce K records)
      ↔ c.NamedInTime K ∧ c.ClockSet := by
  rw [← c.loggedOnce_iff K, c.recorded_call K h]
  constructor
  · rintro ⟨records, heq, hlogged⟩
    rwa [List.append_cancel_left heq]
  · exact fun hlogged => ⟨_, rfl, hlogged⟩

/-- A ringing broadcast at a time, with the number it names, if any. -/
def ringingAt (now : ℤ) (number : Option String) : RingingBroadcast :=
  ⟨number, -1, none, -1, "id", now⟩

/-- A hidden caller, answered; a second call waits, and names its own. -/
def waitingCall : IncomingCall where
  first := ringingAt 1000 none
  rest := [.offhook 2000, .ringing (ringingAt 3000 (some "+7000"))]
  inProgress := by simp
  ended := 4000

theorem waiting_call_misnamed : ¬ ∀ (K : KotlinChars) (before : List Broadcast) (c : IncomingCall),
    PhoneIdle before → ∃ records, (received K (before ++ c.broadcasts)).recorded
      = (received K before).recorded ++ records ∧ c.LoggedOnce K records := by
  intro h
  obtain ⟨records, hrecords, hlogged⟩ := h asciiChars [] waitingCall (.inl rfl)
  rw [waitingCall.recorded_call asciiChars (.inl rfl)] at hrecords
  rw [← List.append_cancel_left hrecords, loggedOnce_iff] at hlogged
  rcases hlogged.1 with hearly | hlate
  · exact absurd hearly (by decide +kernel)
  · exact absurd hlate (by decide +kernel)

/-- The same with a caller who is named while the phone rings. -/
def namedCall : IncomingCall where
  first := ringingAt 1000 none
  rest := [.ringing (ringingAt 1010 (some "+7100")), .offhook 2000,
    .ringing (ringingAt 3000 (some "+7000"))]
  inProgress := by simp
  ended := 4000

theorem named_call_logged : ∃ records,
    (received asciiChars ([.offhook 5, .idle 7] ++ namedCall.broadcasts)).recorded
      = (received asciiChars [.offhook 5, .idle 7]).recorded ++ records
      ∧ namedCall.LoggedOnce asciiChars records :=
  (logged_once_iff asciiChars namedCall (.inr ⟨[.offhook 5], 7, rfl⟩)).2
    ⟨.inl (by decide +kernel), .inr ⟨2000, by decide, by decide⟩⟩

end IncomingCall

end Rackphone
