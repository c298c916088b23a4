import Rackphone.Proofs.EventStore
import Rackphone.Redelivery

/-!
# At least once is exactly once

A stored row is an arrival or a message that was sent. An arrival has a positive id and a sent
message has none, so a key an arrival comes with is taken exactly if the same key came before: the
table and the lists returned are both the first occurrences of what was delivered.
-/

namespace Rackphone

namespace EventStore

variable {s : EventStore}

/-- `add_sent` takes an id below all there are, so no insert of it is ever ignored. -/
theorem stores_sentEvent (s : EventStore) (unit address body : String) (timestamp : ℤ)
    (sub : Option ℤ) : s.stores (s.sentEvent unit address body timestamp sub) = true := by
  unfold stores
  rw [decide_eq_true_eq]
  intro h
  obtain ⟨r, hr, hkey⟩ := mem_keys.1 h
  simp only [Event.key, Prod.mk.injEq] at hkey
  obtain ⟨hunit, hkind, hid⟩ := hkey
  have hle := lowestSourceId_le hr rfl hkind
  rw [hid, hunit] at hle
  have hlt : (s.sentEvent unit address body timestamp sub).sourceId
      ≤ s.lowestSourceId unit - 1 := min_le_right _ _
  have hself : (s.sentEvent unit address body timestamp sub).unit = unit := rfl
  rw [hself] at hle
  omega

theorem addSent_eq (s : EventStore) (unit address body : String) (timestamp : ℤ) (sub : Option ℤ)
    (now : ℤ) : s.addSent unit address body timestamp sub now
      = some (s.insertOrIgnore (s.sentEvent unit address body timestamp sub) now,
          s.newRow (s.sentEvent unit address body timestamp sub) now) :=
  if_pos (s.stores_sentEvent unit address body timestamp sub)

end EventStore

namespace Redelivery

open Occurrence

variable {s : Redelivery} {store : EventStore} {sent : List ℕ} {arrived : List Event}

/-- The table is the first occurrences of what arrived and, with ids that no arrival has, what
was sent. -/
structure Splits (store : EventStore) (sent : List ℕ) (arrived : List Event) : Prop where
  arrivals : (store.rows.filter fun r => r.id ∉ sent).map Row.toEvent = firsts Event.key arrived
  sent_le : ∀ n ∈ sent, n ≤ store.latestEventId
  sourceId_nonpos : ∀ r ∈ store.rows, r.id ∈ sent → r.sourceId ≤ 0
  sourceId_pos : ∀ e ∈ arrived, 0 < e.sourceId

namespace Splits

/-- An arrival's key is taken exactly if it has arrived before. -/
theorem mem_keys_iff (h : Splits store sent arrived) {e : Event} (he : 0 < e.sourceId) :
    e.key ∈ store.keys ↔ e.key ∈ arrived.map Event.key := by
  rw [← mem_keys_firsts, ← h.arrivals, EventStore.mem_keys, List.map_map]
  constructor
  · rintro ⟨r, hr, hkey⟩
    have hid : r.sourceId = e.sourceId := congrArg (fun k => k.2.2) hkey
    have hns : r.id ∉ sent := fun hs => by
      have := h.sourceId_nonpos r hr hs
      omega
    exact List.mem_map.2 ⟨r, List.mem_filter.2 ⟨hr, by simpa using hns⟩, hkey⟩
  · intro hmem
    obtain ⟨r, hr, hkey⟩ := List.mem_map.1 hmem
    exact ⟨r, List.mem_of_mem_filter hr, hkey⟩

theorem insertOrIgnore (h : Splits store sent arrived) {e : Event} (he : 0 < e.sourceId) (t : ℤ) :
    Splits (store.insertOrIgnore e t) sent (arrived ++ [e]) := by
  have hpos : ∀ e' ∈ arrived ++ [e], 0 < e'.sourceId := by
    intro e' he'
    rcases List.mem_append.1 he' with he' | he'
    · exact h.sourceId_pos e' he'
    · exact List.mem_singleton.1 he' ▸ he
  by_cases hk : e.key ∈ store.keys
  · rw [EventStore.insertOrIgnore_of_mem hk]
    refine ⟨?_, h.sent_le, h.sourceId_nonpos, hpos⟩
    rw [firsts_concat_of_mem ((h.mem_keys_iff he).1 hk), h.arrivals]
  · have hnew : (store.newRow e t).id ∉ sent := fun hs =>
      absurd (h.sent_le _ hs) (Nat.not_succ_le_self _)
    have hrows : (store.insertOrIgnore e t).rows = store.rows ++ [store.newRow e t] := by
      rw [EventStore.rows_insertOrIgnore, if_neg hk]
    refine ⟨?_, fun n hn => ?_, fun r hr hs => ?_, hpos⟩
    · rw [firsts_concat_of_notMem fun hmem => hk ((h.mem_keys_iff he).2 hmem), ← h.arrivals, hrows]
      simp only [List.filter_append, List.map_append, List.filter_singleton, hnew,
        not_false_eq_true, decide_true, cond_true, List.map_singleton]
      rfl
    · exact (h.sent_le n hn).trans
        (EventStore.latestEventId_mono (EventStore.rows_prefix_insertOrIgnore _ _ _))
    · rw [hrows, List.mem_append, List.mem_singleton] at hr
      rcases hr with hr | rfl
      · exact h.sourceId_nonpos r hr hs
      · exact absurd hs hnew

/-- What a batch returns is what it adds to the first occurrences. -/
theorem addEvents (t : ℤ) : ∀ {es : List Event} {store : EventStore} {arrived : List Event},
    Splits store sent arrived → (∀ e ∈ es, 0 < e.sourceId) →
      Splits (store.addEvents t es).1 sent (arrived ++ es)
        ∧ firsts Event.key (arrived ++ es)
          = firsts Event.key arrived ++ (store.addEvents t es).2
  | [], store, arrived, h, _ => by simpa [EventStore.addEvents] using h
  | e :: es, store, arrived, h, hes => by
    obtain ⟨he, hes⟩ := List.forall_mem_cons.1 hes
    obtain ⟨hrest, hnew⟩ := addEvents t (h.insertOrIgnore he t) hes
    have hsplit : arrived ++ e :: es = arrived ++ [e] ++ es := by simp
    refine ⟨hsplit ▸ hrest, ?_⟩
    rw [hsplit, hnew]
    by_cases hk : e.key ∈ store.keys
    · have hold : store.stores e = false := by simpa [EventStore.stores] using hk
      rw [firsts_concat_of_mem ((h.mem_keys_iff he).1 hk)]
      simp only [EventStore.addEvents, hold, Bool.false_eq_true, if_false]
    · have hst : store.stores e = true := by simpa [EventStore.stores] using hk
      rw [firsts_concat_of_notMem fun hmem => hk ((h.mem_keys_iff he).2 hmem)]
      simp only [EventStore.addEvents, hst, if_true, List.append_assoc, List.singleton_append]

/-- A message that is sent takes a key of its own and an id no arrival has. -/
theorem addSent (h : Splits store sent arrived) {e : Event} (hnew : store.stores e = true)
    (he : e.sourceId ≤ 0) (now : ℤ) :
    Splits (store.insertOrIgnore e now) (sent ++ [(store.newRow e now).id]) arrived := by
  have hk : e.key ∉ store.keys := by simpa [EventStore.stores] using hnew
  have hrows : (store.insertOrIgnore e now).rows = store.rows ++ [store.newRow e now] := by
    rw [EventStore.rows_insertOrIgnore, if_neg hk]
  have hlt : ∀ r ∈ store.rows, r.id < (store.newRow e now).id := fun r hr =>
    Nat.lt_succ_of_le (Table.le_maxId hr)
  have hle : (store.newRow e now).id ≤ (store.insertOrIgnore e now).latestEventId :=
    Table.le_maxId (hrows ▸ List.mem_append_right _ (List.mem_singleton_self _))
  refine ⟨?_, fun n hn => ?_, fun r hr hs => ?_, h.sourceId_pos⟩
  · have hold : store.rows.filter (fun r => r.id ∉ sent ++ [(store.newRow e now).id])
        = store.rows.filter fun r => r.id ∉ sent := by
      refine List.filter_congr fun r hr => ?_
      simp [(hlt r hr).ne]
    rw [← h.arrivals, hrows, List.filter_append, hold]
    simp
  · rcases List.mem_append.1 hn with hn | hn
    · exact (h.sent_le n hn).trans
        (EventStore.latestEventId_mono (EventStore.rows_prefix_insertOrIgnore _ _ _))
    · exact List.mem_singleton.1 hn ▸ hle
  · rw [hrows, List.mem_append, List.mem_singleton] at hr
    rcases hr with hr | rfl
    · refine h.sourceId_nonpos r hr ((List.mem_append.1 hs).resolve_right fun hn => ?_)
      exact (hlt r hr).ne (List.mem_singleton.1 hn)
    · exact he

end Splits

structure Inv (s : Redelivery) : Prop where
  splits : Splits s.store s.sent s.arrived
  returned : s.returned.flatten = firsts Event.key s.arrived
  counted : s.stats.stored = s.returned.flatten.length
  known : ∀ e ∈ s.arrived, e.key ∈ s.store.keys

theorem inv_start : Inv start where
  splits := ⟨rfl, fun _ h => absurd h List.not_mem_nil, fun _ h => absurd h List.not_mem_nil,
    fun _ h => absurd h List.not_mem_nil⟩
  returned := rfl
  counted := rfl
  known _ h := absurd h List.not_mem_nil

theorem Inv.step (h : Inv s) {a : Action} (ha : a.Promised) : Inv (s.step a) := by
  cases a with
  | drain receivedAt events =>
    obtain ⟨hsplits, hnew⟩ := h.splits.addEvents receivedAt ha
    refine ⟨hsplits, ?_, ?_, fun e he => ?_⟩
    · simp only [Redelivery.step, drainUnit, List.flatten_append, h.returned, hnew,
        List.flatten_singleton]
    · simp only [Redelivery.step, drainUnit, List.flatten_append, List.length_append, h.counted,
        List.flatten_singleton]
    · rcases List.mem_append.1 he with he | he
      · exact ((EventStore.rows_prefix_addEvents receivedAt s.store events).map _).subset
          (h.known e he)
      · exact EventStore.key_mem_addEvents he
  | addSent unit address body timestamp sub now =>
    have hle : (s.store.sentEvent unit address body timestamp sub).sourceId ≤ 0 := by
      have hts : 0 ≤ timestamp := ha
      exact (min_le_left _ _).trans (by omega)
    simp only [Redelivery.step, EventStore.addSent_eq]
    refine ⟨h.splits.addSent (s.store.stores_sentEvent ..) hle now, h.returned, h.counted,
      fun e he => ?_⟩
    exact ((EventStore.rows_prefix_insertOrIgnore s.store _ now).map _).subset (h.known e he)

end Redelivery

end Rackphone
