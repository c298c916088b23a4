import Rackphone.Proofs.Spool
import Rackphone.SpoolFiles

/-!
# The spool accounts for every event

The files are always texts of events. A record appends one event and drops, and counts, what is
over the cap; a rotation moves the spool's events to a file that was not there.
-/

namespace Rackphone

theorem trimText_spoolText (cap : ℕ+) (xs : List Spooled) :
    trimText cap (spoolText xs)
      = (spoolText (xs.drop (xs.length - cap)), xs.length - cap) := by
  unfold trimText
  simp only [readLines_spoolText, List.length_map]
  split_ifs with h
  · rw [Nat.sub_eq_zero_of_le h, List.drop_zero]
  · have hcap := cap.pos
    rw [← List.map_drop, Lines.intercalate_append]
    · rfl
    · rw [ne_eq, List.drop_eq_nil_iff]
      omega

/-- A record of `Spool` leaves the text that a record leaves here. -/
theorem recordText_eq_trimText (cap : ℕ+) (file : List Char) (x : Spooled) :
    recordText cap file x = (trimText cap (file ++ (x.line ++ ['\n']))).1 := by
  unfold recordText trimText
  simp only []
  split_ifs <;> rfl

theorem spoolText_append (xs : List Spooled) (x : Spooled) :
    spoolText xs ++ (x.line ++ ['\n']) = spoolText (xs ++ [x]) := by
  simp [spoolText]

namespace SpoolFiles

@[simp] theorem lineCount_none : lineCount none = 0 := rfl

@[simp] theorem lineCount_spoolText (es : List Spooled) :
    lineCount (some (spoolText es)) = es.length := by
  rw [lineCount, Option.getD_some, readLines_spoolText, List.length_map]

/-- The file is the text of these events; there is none of it where there are none. -/
def Holds (file : Option (List Char)) (es : List Spooled) : Prop :=
  file = some (spoolText es) ∨ file = none ∧ es = []

theorem Holds.getD {file : Option (List Char)} {es : List Spooled} (h : Holds file es) :
    file.getD [] = spoolText es := by
  rcases h with rfl | ⟨rfl, rfl⟩ <;> rfl

theorem Holds.lineCount {file : Option (List Char)} {es : List Spooled} (h : Holds file es) :
    lineCount file = es.length := by
  rcases h with rfl | ⟨rfl, rfl⟩ <;> simp

/-- What every operation keeps. -/
structure Inv (s : SpoolFiles) : Prop where
  spool : ∃ es, Holds s.spool es ∧ es <:+ s.sinceRotation ∧ es.length ≤ s.lastCap
  inflight : ∃ es, Holds s.inflight es
  conserved : ∃ lost : ℕ, s.recorded.length
      = s.acked + lineCount s.inflight + lineCount s.spool + lost ∧ s.dropped = Int32.ofNat lost
  handed : ∀ batch ∈ s.handed, s.inflight = some batch

theorem inv_start : Inv start where
  spool := ⟨[], .inr ⟨rfl, rfl⟩, List.nil_suffix, Nat.zero_le _⟩
  inflight := ⟨[], .inr ⟨rfl, rfl⟩⟩
  conserved := ⟨0, rfl, rfl⟩
  handed := by simp [start]

theorem trimText_append {file : Option (List Char)} {es : List Spooled} (cap : ℕ+) (x : Spooled)
    (h : file.getD [] = spoolText es) : trimText cap (file.getD [] ++ (x.line ++ ['\n']))
      = (spoolText ((es ++ [x]).drop ((es ++ [x]).length - cap)), (es ++ [x]).length - cap) := by
  rw [h, spoolText_append, trimText_spoolText]

/-- What is left of one event more, cut to the cap, is as many as there were and that one, less
what is dropped. -/
theorem inv_record {s : SpoolFiles} (h : s.Inv) (cap : ℕ+) (x : Spooled) :
    (s.record cap x).Inv := by
  obtain ⟨es, hes, ⟨before, hbefore⟩, -⟩ := h.spool
  obtain ⟨xs, hxs⟩ : ∃ xs, xs = es ++ [x] := ⟨_, rfl⟩
  have htext := trimText_append cap x hes.getD
  rw [← hxs] at htext
  have hsuffix : xs <:+ s.sinceRotation ++ [x] :=
    ⟨before, by rw [hxs, ← hbefore, List.append_assoc]⟩
  have hcount : xs.length = lineCount s.spool + 1 := by
    rw [hxs, hes.lineCount, List.length_append, List.length_singleton]
  obtain ⟨lost, hlost, hdropped⟩ := h.conserved
  unfold record
  simp only [htext]
  exact {
    spool := ⟨_, .inl rfl, (List.drop_suffix _ xs).trans hsuffix, by
      simp only [List.length_drop]
      omega⟩
    inflight := h.inflight
    conserved := by
      refine ⟨lost + (xs.length - cap), ?_, by rw [hdropped, Int32.ofNat_add]⟩
      simp only [List.length_append, List.length_singleton, lineCount_spoolText, List.length_drop]
      omega
    handed := h.handed }

theorem drain_of_some {s : SpoolFiles} {batch : List Char} (h : s.inflight = some batch) :
    s.drain = ({ s with handed := some batch }, batch) := by
  simp only [drain, h]

theorem inv_drain {s : SpoolFiles} (h : s.Inv) : s.drain.1.Inv := by
  cases hinflight : s.inflight with
  | some batch =>
    rw [drain_of_some hinflight]
    exact ⟨h.spool, h.inflight, h.conserved, by simp [hinflight]⟩
  | none =>
    obtain ⟨es, hes, -, -⟩ := h.spool
    obtain ⟨lost, hlost, hdropped⟩ := h.conserved
    cases hspool : s.spool with
    | none =>
      have hdrain : s.drain = (s, []) := by simp only [drain, hinflight, hspool]
      rw [hdrain]
      exact h
    | some batch =>
      have hdrain : s.drain.1 = { s with
          spool := none, inflight := some batch, sinceRotation := [], handed := some batch } := by
        simp only [drain, hinflight, hspool]
      rw [hdrain]
      exact {
        spool := ⟨[], .inr ⟨rfl, rfl⟩, List.nil_suffix, Nat.zero_le _⟩
        inflight := ⟨es, hspool ▸ hes⟩
        conserved := by
          rw [hinflight, hspool, lineCount_none] at hlost
          refine ⟨lost, ?_, hdropped⟩
          simp only [lineCount_none]
          omega
        handed := by simp }

theorem inv_ack {s : SpoolFiles} (h : s.Inv) : s.ack.Inv where
  spool := h.spool
  inflight := ⟨[], .inr ⟨rfl, rfl⟩⟩
  conserved := by
    obtain ⟨lost, hlost, hdropped⟩ := h.conserved
    refine ⟨lost, ?_, hdropped⟩
    simp only [ack, lineCount_none]
    omega
  handed := by simp [ack]

theorem inv_step (s : SpoolFiles) (a : Action) (h : s.Inv) : (s.step a).Inv := by
  cases a with
  | record cap x => exact inv_record h cap x
  | drain => exact inv_drain h
  | ack => exact inv_ack h

theorem Shows.getD {s : SpoolFiles} {b : Inbox} (h : Shows s b) :
    s.spool.getD [] = spoolText (b.spool.getD []) := by
  rw [h.spool]
  cases b.spool <;> rfl

theorem shows_record {s : SpoolFiles} {b : Inbox} (h : Shows s b) (cap : ℕ+) (x : Spooled) :
    Shows (s.record cap x) (b.append cap x) := by
  have htext := trimText_append cap x h.getD
  unfold record
  simp only [htext]
  refine ⟨rfl, h.inflight, ?_⟩
  rw [h.dropped, ← Int32.ofNat_add]
  rfl

theorem shows_drain {s : SpoolFiles} {b : Inbox} (h : Shows s b) : Shows s.drain.1 b.drain := by
  cases hinflight : b.inflight with
  | some batch =>
    have hfile : s.inflight = some (spoolText batch) := by rw [h.inflight, hinflight]; rfl
    rw [drain_of_some hfile, Inbox.drain]
    split
    next => exact ⟨h.spool, h.inflight, h.dropped⟩
    next hnone => cases hinflight.symm.trans hnone
  | none =>
    have hfile : s.inflight = none := by rw [h.inflight, hinflight]; rfl
    have hinbox : b.drain.spool = none ∧ b.drain.inflight = b.spool
        ∧ Int32.ofNat b.drain.dropped = Int32.ofNat b.dropped := by
      unfold Inbox.drain
      split
      next heq => cases hinflight.symm.trans heq
      next => exact ⟨rfl, rfl, rfl⟩
    obtain ⟨hspool', hinflight', hdropped'⟩ := hinbox
    cases hspool : b.spool with
    | none =>
      have hfile' : s.spool = none := by rw [h.spool, hspool]; rfl
      have hdrain : s.drain = (s, []) := by simp only [drain, hfile, hfile']
      rw [hdrain]
      exact ⟨by rw [hfile', hspool']; rfl, by rw [hfile, hinflight', hspool]; rfl,
        h.dropped.trans hdropped'.symm⟩
    | some es =>
      have hfile' : s.spool = some (spoolText es) := by rw [h.spool, hspool]; rfl
      unfold drain
      simp only [hfile, hfile']
      exact ⟨by rw [hspool']; rfl, by rw [hinflight', hspool]; rfl,
        h.dropped.trans hdropped'.symm⟩

/-- The files of every run are the texts of the lists of the same run. -/
theorem shows_final : ∀ (as : List Action) {s : SpoolFiles} {b : Inbox}, Shows s b →
    Shows (Run.final step s as) (Run.final inboxStep b as)
  | [], _, _, h => h
  | .record cap x :: as, _, _, h => shows_final as (shows_record h cap x)
  | .drain :: as, _, _, h => shows_final as (shows_drain h)
  | .ack :: as, _, _, h => shows_final as ⟨h.spool, rfl, h.dropped⟩

/-! ## Runs -/

end SpoolFiles

end Rackphone
