import Rackphone.InboxLists
import Rackphone.Lib.Run

/-!
# News in the inbox

Which events of `inbox_controller.dart` the operator has not looked at: those above their kind's
baseline and not among the seen ids. A load asks for every kind at once; when all its queries have
been answered the first load to succeed moves the baselines.
-/

namespace Rackphone

/-- Messages exchanged with one address, newest first. -/
structure MessageThread where
  address : String
  messages : List GatewayEvent
deriving DecidableEq

/-- An incoming message, a missed call or a notification. -/
def GatewayEvent.CountsAsNews (e : GatewayEvent) : Prop :=
  match kindOf e with
  | some .messages => e.direction ≠ some "out"
  | some .calls => e.direction = some "missed"
  | some .notifications => True
  | none => False

instance : DecidablePred GatewayEvent.CountsAsNews := fun e => by
  unfold GatewayEvent.CountsAsNews
  split <;> infer_instance

/-- A load and the kinds whose query is in flight. -/
structure Load where
  pending : List InboxKind
  failed : Bool
deriving DecidableEq

structure InboxNews where
  lists : InboxLists
  baseline : InboxKind → ℤ
  seen : List ℤ
  loadedOnce : Bool
  loads : List Load
  /-- What counts as news, was first delivered by the stream, and has been in its list ever since
  without being looked at. -/
  news : List GatewayEvent

namespace InboxNews

inductive Action where
  | load
  /-- A query of the `i`-th load completes. -/
  | loaded (i : ℕ) (kind : InboxKind) (queried : List GatewayEvent)
      (asked : ∀ e ∈ queried, e.kind = gatewayKind kind)
  | loadFailed (i : ℕ) (kind : InboxKind)
  /-- The `i`-th load goes on after its queries. -/
  | finish (i : ℕ)
  | streamed (event : GatewayEvent)
  | sent (event : GatewayEvent) (sms : event.kind = KIND_SMS)
  | markSeen (kind : InboxKind)
  | markThreadSeen (thread : MessageThread)

def start (unit : String) (kinds : List InboxKind) (messaging : Bool) : InboxNews where
  lists := .start unit kinds messaging
  baseline _ := 0
  seen := []
  loadedOnce := false
  loads := []
  news := []

def isUnseen (s : InboxNews) (event : GatewayEvent) : Bool :=
  match kindOf event with
  | none => false
  | some kind =>
    if event.direction = some "out" then false
    else if kind = .calls ∧ event.direction ≠ some "missed" then false
    else s.baseline kind < event.id ∧ event.id ∉ s.seen

/-- The largest id of a list; an empty list leaves the baseline as it is. -/
def largestId (s : InboxNews) (kind : InboxKind) : ℤ :=
  ((s.lists.events kind).map GatewayEvent.id).max?.getD (s.baseline kind)

/-- The ids of a thread's unseen messages. -/
def unseenIds (s : InboxNews) (thread : MessageThread) : List ℤ :=
  (thread.messages.filter fun e => s.isUnseen e).map GatewayEvent.id

/-- The event is in the list of its kind. -/
def Listed (lists : InboxLists) (e : GatewayEvent) : Prop := ∃ k ∈ kindOf e, e ∈ lists.events k

instance (lists : InboxLists) : DecidablePred (Listed lists) := fun e =>
  match h : kindOf e with
  | none => isFalse (by simp [Listed, h])
  | some k => decidable_of_iff (e ∈ lists.events k) (by simp [Listed, h])

/-- The stream's event counts as news, and nothing with its id was delivered before. -/
def FirstNews (s : InboxNews) (event : GatewayEvent) : Prop :=
  event.unit = s.lists.unit ∧ (∀ k ∈ kindOf event, k ∈ s.lists.kinds) ∧ event.CountsAsNews
    ∧ event.id ∉ s.lists.received.map GatewayEvent.id

instance (s : InboxNews) : DecidablePred s.FirstNews := fun event =>
  have : Decidable (∀ k ∈ kindOf event, k ∈ s.lists.kinds) :=
    match h : kindOf event with
    | none => isTrue (by simp)
    | some k => decidable_of_iff (k ∈ s.lists.kinds) (by simp)
  inferInstanceAs (Decidable (_ ∧ _))

/-- A step of the lists, and what it brings that is news. -/
def relist (s : InboxNews) (a : InboxLists.Action) (brought : List GatewayEvent) : InboxNews :=
  { s with
    lists := s.lists.step a
    news := (s.news ++ brought).filter fun e => Listed (s.lists.step a) e }

def step (s : InboxNews) : Action → InboxNews
  | .load => { s with loads := s.loads ++ [⟨s.lists.kinds, false⟩] }
  | .loaded i kind queried asked =>
    match s.loads[i]? with
    | some load =>
      if kind ∈ load.pending then
        { s.relist (.loaded kind queried asked) [] with
          loads := s.loads.set i { load with pending := load.pending.erase kind } }
      else s
    | none => s
  | .loadFailed i kind =>
    match s.loads[i]? with
    | some load =>
      if kind ∈ load.pending then
        { s with loads := s.loads.set i ⟨load.pending.erase kind, true⟩ }
      else s
    | none => s
  | .finish i =>
    match s.loads[i]? with
    | some load =>
      if load.pending = [] ∧ ¬ load.failed ∧ ¬ s.loadedOnce then
        { s with loadedOnce := true, baseline := s.largestId }
      else s
    | none => s
  | .streamed event => s.relist (.streamed event) (if s.FirstNews event then [event] else [])
  | .sent event sms => s.relist (.sent event sms) []
  | .markSeen kind =>
    { s with
      baseline :=
        if (s.lists.events kind).any s.isUnseen then
          Function.update s.baseline kind (s.largestId kind)
        else s.baseline
      news := s.news.filter fun e => e ∉ s.lists.events kind }
  | .markThreadSeen thread =>
    { s with
      seen := s.seen ++ s.unseenIds thread
      news := s.news.filter fun e => e ∉ thread.messages }

/-- News is reported as unseen. -/
def NewsUnseen (s : InboxNews) : Prop := ∀ e ∈ s.news, s.isUnseen e

instance : DecidablePred NewsUnseen := fun s =>
  inferInstanceAs (Decidable (∀ e ∈ s.news, s.isUnseen e))

/-- The event is above the baseline of its kind and its id is not among those seen; a notification
is not marked as going out. -/
def Fresh (s : InboxNews) (e : GatewayEvent) : Prop :=
  (∀ k ∈ kindOf e, s.baseline k < e.id) ∧ e.id ∉ s.seen ∧ e.direction ≠ some "out"

/-- The load succeeds, and is the first to. -/
def SucceedsFirst (s : InboxNews) (i : ℕ) : Prop :=
  ∃ load ∈ s.loads[i]?, load.pending = [] ∧ ¬ load.failed ∧ ¬ s.loadedOnce

/-- News that the stream delivers and the list keeps is fresh, no news is there when the first
load succeeds, and no thread that is marked has an unseen message with the id of news that is not
in the thread. -/
def Undisturbed (s : InboxNews) : Action → Prop
  | .streamed event => s.FirstNews event → Listed (s.lists.step (.streamed event)) event →
    s.Fresh event
  | .finish i => s.SucceedsFirst i → s.news = []
  | .markThreadSeen thread => ∀ e ∈ s.news, e ∉ thread.messages → e.id ∉ s.unseenIds thread
  | _ => True

end InboxNews

end Rackphone
