import Mathlib

/-!
# Escalating locks

A subject whose failures reach a threshold is locked, each time for the next rung of a ladder of
durations, and nothing of it is let through while a lock is active. If the first `k` rungs together
last a window, then at most `k` failures beyond the threshold's last free one fit into any window
of that length, wherever it starts: each of these was only let through once the lock before it had
run out.
-/

structure Ladder where
  rungs : List ℤ
  ascending : rungs.Pairwise (· ≤ ·)
  nonneg : ∀ d ∈ rungs, 0 ≤ d
  nonempty : rungs ≠ []

namespace Ladder

structure Lock where
  level : ℤ
  lockedUntil : ℤ
deriving DecidableEq

variable (L : Ladder)

/-- The rung a lock at some level stands for, the last one from there on. -/
def rung (level : ℤ) : ℕ := (min (max level 0) (L.rungs.length - 1)).toNat

def duration (level : ℤ) : ℤ := L.rungs.getD (L.rung level) 0

def level (l : Option Lock) : ℤ := (l.map Lock.level).getD 0

/-- The lock set at `t` after `l`. -/
def next (l : Option Lock) (t : ℤ) : Lock :=
  ⟨min (L.rung (level l) + 1) L.rungs.length, t + L.duration (level l)⟩

def Open (l : Option Lock) (t : ℤ) : Prop := ∀ lock, l = some lock → lock.lockedUntil ≤ t

/-- What `n` failures in a window that starts at `w` have forced: of `threshold`, one lock, and one
more for each failure after that. -/
def Forced (threshold : ℕ) (w : ℤ) (n : ℕ) (l : Option Lock) : Prop :=
  threshold ≤ n → ∃ lock, l = some lock
    ∧ ((n + 1 - threshold : ℕ) : ℤ) ≤ lock.level
    ∧ w + (L.rungs.take (n + 1 - threshold)).sum ≤ lock.lockedUntil

variable {L} {l : Option Lock} {w t : ℤ} {n k threshold : ℕ}

theorem length_pos (L : Ladder) : 0 < L.rungs.length := List.length_pos_iff.2 L.nonempty

theorem rung_lt (L : Ladder) (level : ℤ) : L.rung level < L.rungs.length := by
  have := L.length_pos
  unfold rung
  omega

theorem duration_eq {level : ℤ} (h : L.rung level < L.rungs.length) :
    L.duration level = L.rungs[L.rung level] :=
  List.getD_eq_getElem _ _ h

theorem duration_nonneg (L : Ladder) (level : ℤ) : 0 ≤ L.duration level := by
  rw [duration_eq (L.rung_lt level)]
  exact L.nonneg _ (List.getElem_mem _)

theorem getElem_mono (L : Ladder) {i j : ℕ} (hij : i ≤ j) (hi : i < L.rungs.length)
    (hj : j < L.rungs.length) : L.rungs[i] ≤ L.rungs[j] := by
  rcases hij.eq_or_lt with rfl | hlt
  · exact le_rfl
  · exact List.pairwise_iff_getElem.1 L.ascending i j _ hj hlt

theorem getElem_le_duration (hk : k < L.rungs.length) {level : ℤ} (h : (k : ℤ) ≤ max level 0) :
    L.rungs[k] ≤ L.duration level := by
  rw [duration_eq (L.rung_lt level)]
  refine L.getElem_mono ?_ _ _
  unfold rung
  omega

theorem lt_level_next (hk : k < L.rungs.length) (h : (k : ℤ) ≤ max (level l) 0) (t : ℤ) :
    ((k + 1 : ℕ) : ℤ) ≤ (L.next l t).level := by
  unfold next rung
  simp only []
  omega

theorem duration_le_next (L : Ladder) (l : Option Lock) (t : ℤ) :
    L.duration (level l) ≤ L.duration (L.next l t).level := by
  rw [duration_eq (L.rung_lt _), duration_eq (L.rung_lt _)]
  refine L.getElem_mono ?_ _ _
  have := L.rung_lt (level l)
  unfold next
  unfold rung at this ⊢
  simp only []
  omega

theorem sum_take_mono (L : Ladder) {i j : ℕ} (h : i ≤ j) :
    (L.rungs.take i).sum ≤ (L.rungs.take j).sum := by
  obtain ⟨d, rfl⟩ := Nat.exists_eq_add_of_le h
  rw [List.take_add, List.sum_append]
  have hnonneg : 0 ≤ ((L.rungs.drop i).take d).sum :=
    List.sum_nonneg fun x hx => L.nonneg x (List.mem_of_mem_drop (List.mem_of_mem_take hx))
  omega

theorem forced_zero (h : 0 < threshold) (w : ℤ) (l : Option Lock) : L.Forced threshold w 0 l :=
  fun hle => absurd hle (not_le.2 h)

/-- A failure that is let through comes after all the locks its predecessors forced. -/
theorem Forced.le_time (h : L.Forced threshold w n l) (hopen : Open l t) (hw : w ≤ t) :
    w + (L.rungs.take (n + 1 - threshold)).sum ≤ t := by
  by_cases hn : threshold ≤ n
  · obtain ⟨lock, hl, -, huntil⟩ := h hn
    exact huntil.trans (hopen lock hl)
  · have hzero : n + 1 - threshold = 0 := by omega
    simpa [hzero] using hw

theorem Forced.le_level (h : L.Forced threshold w n l) :
    ((n + 1 - threshold : ℕ) : ℤ) ≤ max (level l) 0 := by
  by_cases hn : threshold ≤ n
  · obtain ⟨lock, rfl, hlevel, -⟩ := h hn
    exact le_max_of_le_left hlevel
  · omega

/-- One more failure in the window, and the lock that goes with it. -/
theorem Forced.succ (h : L.Forced threshold w n l) (hopen : Open l t) (hw : w ≤ t)
    (hk : n + 1 - threshold < L.rungs.length) :
    L.Forced threshold w (n + 1) (some (L.next l t)) := by
  intro hn
  have hsucc : n + 1 + 1 - threshold = (n + 1 - threshold) + 1 := by omega
  have htime := h.le_time hopen hw
  have hrung := getElem_le_duration hk h.le_level
  refine ⟨_, rfl, ?_, ?_⟩
  · rw [hsucc]
    exact lt_level_next hk h.le_level t
  · rw [hsucc, List.sum_take_succ _ _ hk]
    unfold next
    simp only []
    omega

/-- A lock set for another reason leaves what was forced: it is no shorter and no earlier. -/
theorem Forced.lock (h : L.Forced threshold w n l) (hopen : Open l t)
    (hk : n + 1 - threshold ≤ L.rungs.length) : L.Forced threshold w n (some (L.next l t)) := by
  intro hn
  obtain ⟨lock, rfl, hlevel, huntil⟩ := h hn
  have hnonneg := L.duration_nonneg (level (some lock))
  have hpos := L.length_pos
  refine ⟨_, rfl, ?_, ?_⟩
  · unfold next rung level
    simp only [Option.map_some, Option.getD_some]
    omega
  · have := hopen lock rfl
    unfold next
    simp only []
    omega

/-- A failure let through before the window is over is one of the first `k` beyond the last free
one, where `k` rungs last the window. -/
theorem Forced.lt_of_open (h : L.Forced threshold w n l) (hopen : Open l t) (hw : w ≤ t)
    {window : ℤ} (ht : t < w + window) (hwindow : window ≤ (L.rungs.take k).sum) :
    n + 1 - threshold < k := by
  have htime := h.le_time hopen hw
  by_contra hge
  have := L.sum_take_mono (not_lt.1 hge)
  omega

end Ladder
