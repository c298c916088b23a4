import Mathlib

/-!
# Pages of a ranking

A page is the first `n` entries of a list put in descending order of a key. Where the keys are
distinct, an entry is on the page exactly when fewer than `n` entries rank ahead of it
(`mem_top`), so what a page shows is settled by counting and no sort has to be looked into.
-/

namespace Page

variable {α κ : Type*} [LinearOrder κ] (key : α → κ)

/-- The list in descending order of its keys. -/
def descending (l : List α) : List α := l.insertionSort fun a b => key b ≤ key a

def top (n : ℕ) (l : List α) : List α := (descending key l).take n

/-- How many entries of the list rank ahead of `x`. -/
def ahead (l : List α) (x : α) : ℕ := l.countP fun y => key x < key y

instance total_key : Std.Total fun a b : α => key b ≤ key a := ⟨fun a b => le_total (key b) (key a)⟩

instance isTrans_key : IsTrans α fun a b : α => key b ≤ key a := ⟨fun _ _ _ h h' => h'.trans h⟩

theorem descending_perm (l : List α) : (descending key l).Perm l := List.perm_insertionSort _ l

theorem descending_pairwise (l : List α) :
    (descending key l).Pairwise fun a b => key b ≤ key a :=
  List.pairwise_insertionSort _ l

theorem mem_of_mem_top {n : ℕ} {l : List α} {x : α} (h : x ∈ top key n l) : x ∈ l :=
  (descending_perm key l).mem_iff.1 (List.mem_of_mem_take h)

theorem ahead_perm {l l' : List α} (h : l.Perm l') (x : α) : ahead key l x = ahead key l' x :=
  h.countP_eq _

theorem ahead_le_of_subperm {l l' : List α} (h : l.Subperm l') (x : α) :
    ahead key l x ≤ ahead key l' x :=
  h.countP_le _

/-- In a list already in descending order of distinct keys, the rank of an entry is its place. -/
theorem mem_take_of_pairwise : ∀ {l : List α} {n : ℕ} {x : α},
    (l.Pairwise fun a b => key b ≤ key a) → (l.map key).Nodup →
      (x ∈ l.take n ↔ x ∈ l ∧ ahead key l x < n)
  | [], n, x, _, _ => by simp
  | a :: l, 0, x, _, _ => by simp
  | a :: l, n + 1, x, hs, hn => by
    obtain ⟨ha, hl⟩ := List.pairwise_cons.1 hs
    rw [List.map_cons, List.nodup_cons] at hn
    have hlt : ∀ b ∈ l, key b < key a := fun b hb =>
      lt_of_le_of_ne (ha b hb) fun h => hn.1 (h ▸ List.mem_map_of_mem hb)
    -- nothing ranks ahead of the first entry, and it ranks ahead of all the others
    have hfirst : ahead key (a :: l) a = 0 := by
      refine List.countP_eq_zero.2 fun y hy => ?_
      rcases List.mem_cons.1 hy with rfl | hy
      · simp
      · simpa using (hlt y hy).le
    have hrest : ∀ b ∈ l, ahead key (a :: l) b = ahead key l b + 1 := fun b hb => by
      simp only [ahead, List.countP_cons, hlt b hb, decide_true, if_true]
    rw [List.take_succ_cons, List.mem_cons, List.mem_cons, mem_take_of_pairwise hl hn.2]
    constructor
    · rintro (rfl | ⟨hx, hlt'⟩)
      · exact ⟨.inl rfl, by omega⟩
      · exact ⟨.inr hx, by rw [hrest x hx]; omega⟩
    · rintro ⟨rfl | hx, hlt'⟩
      · exact .inl rfl
      · exact .inr ⟨hx, by rw [hrest x hx] at hlt'; omega⟩

/-- What is on the page: the entries fewer than `n` others rank ahead of. -/
theorem mem_top {n : ℕ} {l : List α} {x : α} (h : (l.map key).Nodup) :
    x ∈ top key n l ↔ x ∈ l ∧ ahead key l x < n := by
  have hp := descending_perm key l
  rw [top, mem_take_of_pairwise key (descending_pairwise key l) ((hp.map key).nodup_iff.2 h),
    hp.mem_iff, ahead_perm key hp]

/-- The entries that did not get onto the page have a full one ahead of them. -/
theorem mem_drop {n : ℕ} {l : List α} {x : α} (h : (l.map key).Nodup) :
    x ∈ (descending key l).drop n ↔ x ∈ l ∧ n ≤ ahead key l x := by
  have hp := descending_perm key l
  have hnodup : (descending key l).Nodup := .of_map key ((hp.map key).nodup_iff.2 h)
  have hsplit : x ∈ (descending key l).take n ++ (descending key l).drop n ↔ x ∈ l := by
    rw [List.take_append_drop, hp.mem_iff]
  rw [← List.take_append_drop n (descending key l), List.nodup_append] at hnodup
  rw [List.mem_append] at hsplit
  have htop : x ∈ (descending key l).take n ↔ _ := mem_top key h
  constructor
  · intro hx
    refine ⟨hsplit.1 (.inr hx), ?_⟩
    by_contra hlt
    exact hnodup.2.2 x (htop.2 ⟨hsplit.1 (.inr hx), by omega⟩) x hx rfl
  · rintro ⟨hx, hle⟩
    refine (hsplit.2 hx).resolve_left fun htake => ?_
    have := (htop.1 htake).2
    omega

/-! ## Pages of part of a list -/

theorem descending_filter {l : List α} (p : α → Bool) (h : (l.map key).Nodup) :
    descending key (l.filter p) = (descending key l).filter p := by
  have hperm : (descending key (l.filter p)).Perm ((descending key l).filter p) :=
    (descending_perm key _).trans ((descending_perm key l).filter p).symm
  refine hperm.eq_of_pairwise (fun a b ha hb hab hba => ?_) (descending_pairwise key _)
    ((descending_pairwise key l).filter p)
  have ha := (List.mem_filter.1 ((descending_perm key _).mem_iff.1 ha)).1
  have hb := (descending_perm key l).mem_iff.1 (List.mem_filter.1 hb).1
  exact List.inj_on_of_nodup_map h ha hb (le_antisymm hba hab)

theorem filter_take_iff {n : ℕ} {l : List α} (p : α → Bool) :
    (l.take n).filter p = (l.filter p).take n ↔
      (∀ x ∈ l.take n, p x) ∨ ∀ y ∈ l.drop n, p y = false := by
  have hsplit : l.filter p = (l.take n).filter p ++ (l.drop n).filter p := by
    rw [← List.filter_append, List.take_append_drop]
  have hle : ((l.take n).filter p).length ≤ (l.take n).length := List.length_filter_le ..
  have htake : (l.take n).length ≤ n := List.length_take_le ..
  have hcut : (l.take n).filter p = (l.filter p).take n ↔
      n ≤ ((l.take n).filter p).length ∨ (l.drop n).filter p = [] := by
    rw [hsplit, List.take_append, List.take_of_length_le (hle.trans htake),
      List.self_eq_append_right, List.take_eq_nil_iff, Nat.sub_eq_zero_iff_le]
  have hnone : (l.drop n).filter p = [] ↔ ∀ y ∈ l.drop n, p y = false := by
    simp only [List.filter_eq_nil_iff, Bool.not_eq_true]
  rw [hcut, hnone]
  constructor
  · rintro (hfull | hrest)
    · exact .inl (List.length_filter_eq_length_iff.1 (by omega))
    · exact .inr hrest
  · rintro (hall | hrest)
    · rw [List.filter_eq_self.2 hall, List.length_take]
      obtain hlong | hshort := le_total n l.length
      · exact .inl (by omega)
      · rw [List.drop_eq_nil_of_le hshort]
        exact .inr fun _ h => absurd h List.not_mem_nil
    · exact .inr hrest

/-- Filtering a page gives a page of the filtered list exactly when no entry that is left out takes
a place on it from one that is kept. -/
theorem filter_top_iff {n : ℕ} {l : List α} (p : α → Bool) (h : (l.map key).Nodup) :
    (top key n l).filter p = top key n (l.filter p) ↔ ∀ x ∈ l, ∀ y ∈ l, p x = false → p y = true →
      ahead key l x < n → ahead key l y < n := by
  rw [top, top, descending_filter key p h, filter_take_iff]
  constructor
  · rintro (hall | hnone) x hx y hy hpx hpy hxn
    · have := hall x ((mem_top key h).2 ⟨hx, hxn⟩)
      rw [hpx] at this
      cases this
    · by_contra hyn
      have := hnone y ((mem_drop key h).2 ⟨hy, by omega⟩)
      rw [hpy] at this
      cases this
  · intro hkeep
    by_contra hcon
    obtain ⟨⟨x, hx, hpx⟩, y, hy, hpy⟩ : (∃ x ∈ (descending key l).take n, ¬ p x = true) ∧
        ∃ y ∈ (descending key l).drop n, ¬ p y = false := by
      simpa only [not_or, not_forall, exists_prop] using hcon
    obtain ⟨hx, hxn⟩ := (mem_top key h).1 hx
    obtain ⟨hy, hyn⟩ := (mem_drop key h).1 hy
    have := hkeep x hx y hy (by simpa using hpx) (by simpa using hpy) hxn
    omega

/-! ## Pages of a set of keys -/

/-- The `n` largest, in descending order. -/
def newest (n : ℕ) (s : Finset κ) : List κ := (s.sort (· ≥ ·)).take n

theorem sort_pairwise (s : Finset κ) : (s.sort (· ≥ ·)).Pairwise (· > ·) :=
  s.sortedGT_sort.pairwise

theorem newest_pairwise (n : ℕ) (s : Finset κ) : (newest n s).Pairwise (· > ·) :=
  (sort_pairwise s).sublist (List.take_sublist _ _)

theorem newest_subset (n : ℕ) (s : Finset κ) : (newest n s).toFinset ⊆ s := fun _ hx =>
  (Finset.mem_sort _).1 (List.mem_of_mem_take (List.mem_toFinset.1 hx))

theorem mem_newest {n : ℕ} {s : Finset κ} {x : κ} :
    x ∈ newest n s ↔ x ∈ s ∧ (s.filter fun y => x < y).card < n := by
  have hcount : ahead id (s.sort (· ≥ ·)) x = (s.filter fun y => x < y).card := by
    rw [ahead, List.countP_eq_length_filter,
      ← List.toFinset_card_of_nodup ((s.sort_nodup _).filter _), List.toFinset_filter,
      s.sort_toFinset]
    simp
  have hdesc : (s.sort (· ≥ ·)).Pairwise fun a b => id b ≤ id a :=
    (sort_pairwise s).imp fun h => h.le
  rw [newest, mem_take_of_pairwise id hdesc (by simp), hcount, Finset.mem_sort]

/-- A key that is not on the page has a full page ahead of it. -/
theorem newest_full {n : ℕ} {s : Finset κ} {y : κ} (hy : y ∈ s) (hn : y ∉ newest n s) :
    n ≤ ((newest n s).toFinset.filter fun z => y < z).card := by
  have hsort := sort_pairwise s
  rw [← List.take_append_drop n (s.sort (· ≥ ·)), List.pairwise_append] at hsort
  have hdrop : y ∈ (s.sort (· ≥ ·)).drop n := by
    have hmem := (s.mem_sort (· ≥ ·)).2 hy
    rw [← List.take_append_drop n (s.sort (· ≥ ·)), List.mem_append] at hmem
    exact hmem.resolve_left hn
  have hall : ((newest n s).toFinset.filter fun z => y < z) = (newest n s).toFinset :=
    Finset.filter_true_of_mem fun z hz => hsort.2.2 z (List.mem_toFinset.1 hz) y hdrop
  have hlong : n ≤ (s.sort (· ≥ ·)).length := by
    by_contra hshort
    rw [List.drop_eq_nil_of_le (by omega)] at hdrop
    cases hdrop
  rw [hall, List.toFinset_card_of_nodup (newest_pairwise n s).nodup, newest, List.length_take,
    min_eq_left hlong]

/-- A page that is merged with more keys shows what the whole merged with them shows. -/
theorem newest_union (n : ℕ) (s t : Finset κ) :
    newest n ((newest n s).toFinset ∪ t) = newest n (s ∪ t) := by
  have hsub : (newest n s).toFinset ∪ t ⊆ s ∪ t :=
    Finset.union_subset_union_left (newest_subset n s)
  refine (newest_pairwise _ _).eq_of_mem_iff (newest_pairwise _ _) fun {x} => ?_
  rw [mem_newest, mem_newest]
  constructor
  · rintro ⟨hx, hahead⟩
    refine ⟨hsub hx, lt_of_le_of_lt (Finset.card_le_card fun y hy => ?_) hahead⟩
    obtain ⟨hmem, hlt⟩ := Finset.mem_filter.1 hy
    refine Finset.mem_filter.2 ⟨?_, hlt⟩
    rcases Finset.mem_union.1 hmem with hs | ht
    · -- a key the page has lost has a full page ahead of it, and that is ahead of `x` too
      by_contra hlost
      have hn : y ∉ newest n s := fun hy => hlost (Finset.mem_union_left _ (List.mem_toFinset.2 hy))
      have hfull := newest_full hs hn
      have hle : ((newest n s).toFinset.filter fun z => y < z).card
          ≤ (((newest n s).toFinset ∪ t).filter fun z => x < z).card := by
        refine Finset.card_le_card fun z hz => ?_
        obtain ⟨hz, hyz⟩ := Finset.mem_filter.1 hz
        exact Finset.mem_filter.2 ⟨Finset.mem_union_left _ hz, hlt.trans hyz⟩
      omega
    · exact Finset.mem_union_right _ ht
  · rintro ⟨hx, hahead⟩
    refine ⟨?_, lt_of_le_of_lt (Finset.card_le_card (Finset.filter_subset_filter _ hsub)) hahead⟩
    rcases Finset.mem_union.1 hx with hs | ht
    · refine Finset.mem_union_left _ (List.mem_toFinset.2 (mem_newest.2 ⟨hs, ?_⟩))
      refine lt_of_le_of_lt (Finset.card_le_card ?_) hahead
      exact Finset.filter_subset_filter _ Finset.subset_union_left
    · exact Finset.mem_union_right _ ht

/-- A page of entries with distinct keys shows the largest keys. -/
theorem map_top {n : ℕ} {l : List α} (h : (l.map key).Nodup) :
    (top key n l).map key = newest n (l.map key).toFinset := by
  have hperm := (descending_perm key l).map key
  have hpair : ((descending key l).map key).Pairwise (· > ·) := by
    have hne := List.pairwise_map.1 (hperm.nodup_iff.2 h)
    refine List.pairwise_map.2 (((descending_pairwise key l).and hne).imp fun {a b} hab => ?_)
    exact lt_of_le_of_ne hab.1 hab.2.symm
  have hsort : (descending key l).map key = (l.map key).toFinset.sort (· ≥ ·) := by
    refine hpair.eq_of_mem_iff (sort_pairwise _) fun {x} => ?_
    rw [Finset.mem_sort, List.mem_toFinset, hperm.mem_iff]
  rw [top, List.map_take, hsort, newest]

/-! ## One entry for each id -/

section Distinct

variable {ι : Type*} [DecidableEq ι] (ident : α → ι)

/-- The first of the entries that share an id, leaving out the ids already seen. -/
def distinctFrom : List ι → List α → List α
  | _, [] => []
  | seen, x :: xs =>
    if ident x ∈ seen then distinctFrom seen xs else x :: distinctFrom (ident x :: seen) xs

theorem distinctFrom_sublist : ∀ (seen : List ι) (l : List α), (distinctFrom ident seen l).Sublist l
  | _, [] => .slnil
  | seen, x :: l => by
    rw [distinctFrom]
    split_ifs
    · exact (distinctFrom_sublist seen l).cons x
    · exact (distinctFrom_sublist _ l).cons_cons x

theorem nodup_distinctFrom : ∀ (seen : List ι) (l : List α),
    ((distinctFrom ident seen l).map ident).Nodup ∧ ∀ x ∈ distinctFrom ident seen l, ident x ∉ seen
  | _, [] => ⟨.nil, fun _ h => absurd h (by simp [distinctFrom])⟩
  | seen, x :: l => by
    rw [distinctFrom]
    split_ifs with hx
    · exact nodup_distinctFrom seen l
    · obtain ⟨hn, hseen⟩ := nodup_distinctFrom (ident x :: seen) l
      refine ⟨List.nodup_cons.2 ⟨fun h => ?_, hn⟩, fun y hy => ?_⟩
      · obtain ⟨y, hy, hyx⟩ := List.mem_map.1 h
        exact hseen y hy (hyx ▸ List.mem_cons_self)
      · rcases List.mem_cons.1 hy with rfl | hy
        · exact hx
        · exact fun h => hseen y hy (List.mem_cons_of_mem _ h)

/-- Every id that was not seen is still there. -/
theorem exists_mem_distinctFrom : ∀ {seen : List ι} {l : List α} {x : α}, x ∈ l → ident x ∉ seen →
    ∃ y ∈ distinctFrom ident seen l, ident y = ident x
  | seen, a :: l, x, hx, hn => by
    rw [distinctFrom]
    by_cases hsame : ident x = ident a
    · rw [if_neg (hsame ▸ hn)]
      exact ⟨a, List.mem_cons_self, hsame.symm⟩
    · have hx' : x ∈ l := (List.mem_cons.1 hx).resolve_left fun he => hsame (he ▸ rfl)
      split_ifs with ha
      · exact exists_mem_distinctFrom hx' hn
      · have hn' : ident x ∉ ident a :: seen := by
          rw [List.mem_cons, not_or]
          exact ⟨hsame, hn⟩
        obtain ⟨y, hy, he⟩ := exists_mem_distinctFrom hx' hn'
        exact ⟨y, List.mem_cons_of_mem a hy, he⟩

/-- Where an id determines the key and the key the id, a page of the distinct entries shows the
largest of all the keys, each once. -/
theorem map_top_distinct {n : ℕ} {l : List α}
    (hkey : ∀ x ∈ l, ∀ y ∈ l, ident x = ident y → key x = key y)
    (hident : ∀ x y, key x = key y → ident x = ident y) :
    (top key n (distinctFrom ident [] l)).map key = newest n (l.map key).toFinset := by
  have hsub := (distinctFrom_sublist ident [] l).subset
  have hnodup : ((distinctFrom ident [] l).map key).Nodup :=
    List.pairwise_map.2 ((List.pairwise_map.1 (nodup_distinctFrom ident [] l).1).imp
      fun {x y} hne heq => hne (hident x y heq))
  have hkeys : ((distinctFrom ident [] l).map key).toFinset = (l.map key).toFinset := by
    ext k
    simp only [List.mem_toFinset, List.mem_map]
    refine ⟨fun ⟨x, hx, hk⟩ => ⟨x, hsub hx, hk⟩, fun ⟨x, hx, hk⟩ => ?_⟩
    have hseen : ident x ∉ ([] : List ι) := List.not_mem_nil
    obtain ⟨y, hy, he⟩ := exists_mem_distinctFrom ident hx hseen
    exact ⟨y, hy, (hkey y (hsub hy) x hx he).trans hk⟩
  rw [map_top key hnodup, hkeys]

end Distinct

end Page
