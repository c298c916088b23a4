import Rackphone.Lib.JsonReader

/-!
# What a writer writes, the reader reads

The reader follows an escape, a string, a number, a field and an object as they are written, in
every style. `loads_printObject` puts them together: an object with distinct keys reads back as its
fields, in their order.
-/

namespace Json

def codes (s : List Char) : List ℕ := s.map Char.toNat

def Scalar.toValue : Scalar → Value
  | .null => .null
  | .num n => .int n
  | .str s => .str (codes s.toList)

/-- The dictionary a flat object reads back as. -/
def members (fs : List (String × Scalar)) : List (List ℕ × Value) :=
  fs.map fun f => (codes f.1.toList, f.2.toValue)

theorem codes_injective : Function.Injective codes :=
  List.map_injective_iff.2 fun _ _ h => Char.toNat_inj.1 h

theorem codes_toList_injective : Function.Injective fun s : String => codes s.toList :=
  fun _ _ h => String.toList_injective (codes_injective h)

namespace Reader

variable (sty : Style) (st : List Frame)

theorem run_append : ∀ (r : Reader) (a b : List Char),
    run r (a ++ b) = (run r a).bind fun r' => run r' b
  | _, [], _ => rfl
  | r, c :: a, b => by
    simp only [List.cons_append, run]
    cases step r c with
    | none => rfl
    | some r' => exact run_append r' a b

theorem run_of_step {r : Reader} {c : Char} (r' : Reader) (h : step r c = some r')
    (t : List Char) :
    run r (c :: t) = run r' t := by
  simp only [run, h, Option.bind_some]

theorem step_complete (v : Value) (c : Char) :
    step (complete v st) c = stepComplete (complete v st) c := by
  rcases st with _ | ⟨f, st⟩
  · rfl
  · cases f <;> rfl

theorem run_gap_value (t : List Char) : run ⟨.value, st⟩ (sty.gap ++ t) = run ⟨.value, st⟩ t := by
  unfold Style.gap
  split
  · exact run_of_step _ (by simp [step, stepValue, isSpace]) t
  · rfl

theorem run_gap_key (t : List Char) : run ⟨.key, st⟩ (sty.gap ++ t) = run ⟨.key, st⟩ t := by
  unfold Style.gap
  split
  · exact run_of_step _ (by simp [step, stepKey, isSpace]) t
  · rfl

theorem pushCode_toNat (c : Char) (acc : List ℕ) : pushCode c.toNat acc = c.toNat :: acc := by
  have hv : c.toNat < 0xd800 ∨ 0xdfff < c.toNat ∧ c.toNat < 0x110000 := c.valid
  cases acc with
  | nil => rfl
  | cons h acc =>
    have : isLowSurrogate c.toNat = false := by
      simp only [isLowSurrogate, decide_eq_false_iff_not]
      omega
    simp [pushCode, this]

theorem hexVal_digitChar : ∀ d < 16, hexVal (Nat.digitChar d) = some d := by decide

/-- The reader undoes one escape. -/
theorem run_escapeChar (c : Char) (acc : List ℕ) (t : List Char) :
    run ⟨.string acc, st⟩ (escapeChar sty c ++ t) = run ⟨.string (c.toNat :: acc), st⟩ t := by
  have hescape : ∀ e, unescape e = some c.toNat → e ≠ 'u' →
      run ⟨.string acc, st⟩ (['\\', e] ++ t) = run ⟨.string (c.toNat :: acc), st⟩ t := by
    intro e he hu
    refine (run_of_step ⟨.escape acc, st⟩ (by simp [step]) (e :: t)).trans ?_
    refine run_of_step _ ?_ t
    simp [step, hu, he, pushCode_toNat]
  unfold escapeChar
  split_ifs with h h'
  · refine hescape c ?_ ?_ <;> rcases h with rfl | rfl | ⟨rfl, -⟩ <;> decide
  all_goals
    split
    · rename_i e he
      unfold shortEscape at he
      split_ifs at he with h1 h2 h3 h4 h5 <;> obtain rfl := Option.some.inj he <;>
        refine hescape _ ?_ (by decide) <;> subst c <;> decide
  · have h1 := hexVal_digitChar (c.toNat / 16) (by omega)
    have h2 := hexVal_digitChar (c.toNat % 16) (by omega)
    have h0 : hexVal '0' = some 0 := by decide
    have hc : c.toNat / 16 * 16 + c.toNat % 16 = c.toNat := by omega
    refine (run_of_step ⟨.escape acc, st⟩ (by simp [step]) _).trans ?_
    refine (run_of_step ⟨.hex acc 0 4, st⟩ (by simp [step]) _).trans ?_
    refine (run_of_step ⟨.hex acc 0 3, st⟩ (by simp [step, h0]) _).trans ?_
    refine (run_of_step ⟨.hex acc 0 2, st⟩ (by simp [step, h0]) _).trans ?_
    refine (run_of_step ⟨.hex acc (c.toNat / 16) 1, st⟩ (by simp [step, h1]) _).trans ?_
    refine run_of_step _ ?_ t
    simp [step, h2, hc, pushCode_toNat]
  · refine run_of_step _ ?_ t
    push Not at h
    simp [step, h.1, h.2.1, h', pushCode_toNat]

theorem run_escaped (t : List Char) : ∀ (s : List Char) (acc : List ℕ),
    run ⟨.string acc, st⟩ (s.flatMap (escapeChar sty) ++ t)
      = run ⟨.string ((codes s).reverse ++ acc), st⟩ t
  | [], _ => rfl
  | c :: s, acc => by
    rw [List.flatMap_cons, List.append_assoc, run_escapeChar, run_escaped t s]
    simp [codes]

theorem run_quoted (s t : List Char) :
    run ⟨.string [], st⟩ (s.flatMap (escapeChar sty) ++ '"' :: t)
      = run (completeString (codes s) st) t := by
  rw [run_escaped]
  refine run_of_step _ ?_ t
  simp [step]

theorem run_printString (s t : List Char) :
    run ⟨.value, st⟩ (printString sty s ++ t) = run (completeString (codes s) st) t := by
  have h : printString sty s ++ t = '"' :: (s.flatMap (escapeChar sty) ++ '"' :: t) := by
    simp [printString]
  rw [h, ← run_quoted sty]
  exact run_of_step _ (by simp [step, stepValue, isSpace]) _

def Ends (c : Char) : Prop := c = ',' ∨ c = '}'

/-- A reader that takes a first digit takes the whole numeral. -/
theorem run_toDigits {r : Reader} (pre : List Char)
    (h0 : ∀ d < 10, 0 < d →
      step r (Nat.digitChar d) = some ⟨.number .int (pre ++ [Nat.digitChar d]), st⟩) (n : ℕ)
    (hn : 0 < n) :
    run r (Nat.toDigits 10 n) = some ⟨.number .int (pre ++ Nat.toDigits 10 n), st⟩ := by
  induction n using Nat.strongRecOn with
  | ind n ih =>
    rcases lt_or_ge n 10 with h | h
    · rw [Nat.toDigits_of_lt_base h]
      simp [run, h0 n h hn]
    · rw [Nat.toDigits_of_base_le (by omega) h, run_append, ih (n / 10) (by omega) (by omega)]
      have hd : (Nat.digitChar (n % 10)).isDigit = true := by
        rw [Nat.isDigit_digitChar]
        exact decide_eq_true (by omega)
      simp [run, step, nextPhase, hd]

theorem step_number {phase : NumPhase} {spelling : List Char} {v : Value} {c : Char}
    (hc : Ends c) (hv : numberValue spelling phase = some v) :
    step ⟨.number phase spelling, st⟩ c = stepComplete (complete v st) c := by
  have hn : nextPhase c phase = none := by
    rcases hc with rfl | rfl <;> cases phase <;> simp_all [nextPhase, numberValue]
  have hp : phase ≠ .neg := by
    rintro rfl
    simp [numberValue] at hv
  simp [step, hn, hp, hv]

theorem intValue_toDigits (n : ℕ) : intValue (Nat.toDigits 10 n) = n := by
  have hd : (Nat.toDigits 10 n).head? ≠ some '-' := by
    intro h
    have hm : '-' ∈ Nat.toDigits 10 n := List.mem_of_mem_head? h
    have := Nat.isDigit_of_mem_toDigits (by omega) (by omega) hm
    exact absurd this (by decide)
  rw [intValue, if_neg hd, Nat.ofDigitChars_ten_toDigits]

theorem intValue_neg_toDigits (n : ℕ) : intValue ('-' :: Nat.toDigits 10 n) = -(n : ℤ) := by
  rw [intValue, if_pos (List.head?_cons ..), List.tail_cons, Nat.ofDigitChars_ten_toDigits]

theorem step_digitChar {d : ℕ} (hd : d < 10) (h0 : 0 < d) :
    step ⟨.value, st⟩ (Nat.digitChar d) = some ⟨.number .int [Nat.digitChar d], st⟩ := by
  interval_cases d <;> rfl

theorem run_printNum (n : ℤ) {c : Char} (hc : Ends c) (t : List Char) :
    run ⟨.value, st⟩ (printNum n ++ c :: t)
      = (stepComplete (complete (.int n) st) c).bind fun r => run r t := by
  have hend : ∀ phase spelling, numberValue spelling phase = some (.int n) →
      run ⟨.number phase spelling, st⟩ (c :: t)
        = (stepComplete (complete (.int n) st) c).bind fun r => run r t := by
    intro phase spelling hv
    rw [run, step_number st hc hv]
  cases n with
  | ofNat n =>
    rw [printNum, run_append]
    rcases Nat.eq_zero_or_pos n with rfl | hn
    · exact hend .zero ['0'] rfl
    · rw [run_toDigits st [] (fun _ => step_digitChar st) n hn]
      exact hend .int _ (by rw [List.nil_append, numberValue, intValue_toDigits]; rfl)
  | negSucc n =>
    have hstep : step ⟨.value, st⟩ '-' = some ⟨.number .neg ['-'], st⟩ := rfl
    rw [printNum, List.cons_append, run_of_step _ hstep, run_append,
      run_toDigits st ['-'] (fun d hd h0 => by interval_cases d <;> rfl) (n + 1)
        (Nat.succ_pos n)]
    exact hend .int _ (by rw [List.singleton_append, numberValue, intValue_neg_toDigits]; rfl)

theorem run_printScalar (v : Scalar) (hst : ∀ fs st', st ≠ .key fs :: st') {c : Char}
    (hc : Ends c) (t : List Char) :
    run ⟨.value, st⟩ (printScalar sty v ++ c :: t)
      = (stepComplete (complete v.toValue st) c).bind fun r => run r t := by
  cases v with
  | null =>
    have hlit : ∀ s, run ⟨.value, st⟩ ('n' :: 'u' :: 'l' :: 'l' :: s)
        = run ⟨.literal [] .null, st⟩ s := fun s => rfl
    exact hlit (c :: t)
  | num n => exact run_printNum st n hc t
  | str s =>
    rw [printScalar, run_printString]
    have hs : completeString (codes s.toList) st = complete (.str (codes s.toList)) st := by
      rcases st with _ | ⟨f, st⟩
      · rfl
      · cases f with
        | key fs => exact absurd rfl (hst fs st)
        | _ => rfl
    rw [hs, run, step_complete]
    rfl

theorem run_key (k : String) (fs : List (List ℕ × Value)) (t : List Char) :
    run ⟨.key, .key fs :: st⟩ (printString sty k.toList ++ sty.colon ++ t)
      = run ⟨.value, .val fs (codes k.toList) :: st⟩ t := by
  have h : printString sty k.toList ++ sty.colon ++ t
      = '"' :: (k.toList.flatMap (escapeChar sty) ++ '"' :: (sty.colon ++ t)) := by
    simp [printString]
  rw [h, run_of_step ⟨.string [], .key fs :: st⟩ (by simp [step, stepKey, isSpace]),
    run_quoted]
  refine (run_of_step ⟨.value, .val fs (codes k.toList) :: st⟩ ?_ _).trans
    (run_gap_value sty _ t)
  simp [completeString, step, isSpace]

section Fields

variable {α : Type*} {print : α → List Char} {value : α → Value}

/-- Fields as an object's writer joins them. -/
def joinFields (print : α → List Char) : List (String × α) → List Char
  | [] => []
  | [f] => printString sty f.1.toList ++ sty.colon ++ print f.2
  | f :: g :: fs => printString sty f.1.toList ++ sty.colon ++ print f.2 ++ sty.comma
      ++ joinFields print (g :: fs)

theorem run_joinFields (hread : ∀ (a : α) (st : List Frame), (∀ fs st', st ≠ .key fs :: st') →
      ∀ c, Ends c → ∀ t, run ⟨.value, st⟩ (print a ++ c :: t)
        = (stepComplete (complete (value a) st) c).bind fun r => run r t)
    (t : List Char) : ∀ (fs : List (String × α)), fs ≠ [] → ∀ done : List (List ℕ × Value),
      run ⟨.key, .key done :: st⟩ (joinFields sty print fs ++ '}' :: t)
        = run (complete (.obj (fs.foldl (fun d f => setKey (codes f.1.toList) (value f.2) d) done))
            st) t
  | [f], _, done => by
    rw [joinFields, List.append_assoc, run_key, hread f.2 _ (by simp) _ (.inr rfl)]
    simp [complete, stepComplete, stepAfter, isSpace]
  | f :: g :: fs, _, done => by
    have h : joinFields sty print (f :: g :: fs) ++ '}' :: t = printString sty f.1.toList
        ++ sty.colon
        ++ (print f.2 ++ ',' :: (sty.gap ++ (joinFields sty print (g :: fs) ++ '}' :: t))) := by
      simp [joinFields, Style.comma]
    rw [h, run_key, hread f.2 _ (by simp) _ (.inl rfl)]
    refine Eq.trans ?_ (run_joinFields hread t (g :: fs) (by simp) (setKey _ (value f.2) done))
    rw [← run_gap_key sty _ (joinFields sty print (g :: fs) ++ '}' :: t)]
    simp [complete, stepComplete, stepAfter, isSpace]

end Fields

theorem printFields_eq_joinFields : ∀ fs : List (String × Scalar),
    printFields sty fs = joinFields sty (printScalar sty) fs
  | [] => rfl
  | [_] => rfl
  | f :: g :: fs => by
    rw [printFields, printFields_eq_joinFields (g :: fs)]
    rfl

end Reader

theorem setKey_of_notMem {k : List ℕ} {v : Value} : ∀ {fs : List (List ℕ × Value)},
    k ∉ fs.map Prod.fst → setKey k v fs = fs ++ [(k, v)]
  | [], _ => rfl
  | f :: fs, h => by
    simp only [List.map_cons, List.mem_cons, not_or] at h
    rw [setKey, if_neg (Ne.symm h.1), setKey_of_notMem h.2, List.cons_append]

section Objects

variable {α : Type*} (print : α → List Char) (value : α → Value)

theorem foldl_setKey : ∀ (fs : List (String × α)) (done : List (List ℕ × Value)),
    (done.map Prod.fst ++ fs.map fun f => codes f.1.toList).Nodup →
      fs.foldl (fun d f => setKey (codes f.1.toList) (value f.2) d) done
        = done ++ fs.map fun f => (codes f.1.toList, value f.2)
  | [], done, _ => by simp
  | f :: fs, done, h => by
    have hf : codes f.1.toList ∉ done.map Prod.fst := fun hm =>
      (List.nodup_append.1 h).2.2 _ hm _ (by simp) rfl
    rw [List.foldl_cons, setKey_of_notMem hf, foldl_setKey fs]
    · simp
    · simpa using h

theorem run_joined (sty : Style) (hread : ∀ (a : α) (st : List Frame),
      (∀ fs st', st ≠ .key fs :: st') → ∀ c, Reader.Ends c → ∀ t,
        Reader.run ⟨.value, st⟩ (print a ++ c :: t)
          = (Reader.stepComplete (Reader.complete (value a) st) c).bind fun r => Reader.run r t)
    {fs : List (String × α)} (h : (fs.map Prod.fst).Nodup) :
    Reader.start.run ('{' :: Reader.joinFields sty print fs ++ ['}'])
      = some ⟨.done (.obj (fs.map fun f => (codes f.1.toList, value f.2))), []⟩ := by
  rcases fs with _ | ⟨f, fs⟩
  · rfl
  have hk : ((f :: fs).map fun f => codes f.1.toList).Nodup := by
    have := h.map codes_toList_injective
    rwa [List.map_map] at this
  have hquote : ∃ t, Reader.joinFields sty print (f :: fs) ++ ['}'] = '"' :: t := by
    cases fs <;> exact ⟨_, rfl⟩
  have hkey : ∀ t, Reader.run ⟨.firstKey, [.key []]⟩ ('"' :: t)
      = Reader.run ⟨.key, [.key []]⟩ ('"' :: t) := fun t => rfl
  have hopen : Reader.start.step '{' = some ⟨.firstKey, [.key []]⟩ := rfl
  rw [List.cons_append, Reader.run_of_step _ hopen]
  obtain ⟨t, ht⟩ := hquote
  rw [ht, hkey, ← ht, Reader.run_joinFields sty [] hread [] _ (by simp),
    foldl_setKey value _ _ (by simpa using hk)]
  rfl

end Objects

theorem run_printObject (sty : Style) {fs : List (String × Scalar)}
    (h : (fs.map Prod.fst).Nodup) :
    Reader.start.run (printObject sty fs) = some ⟨.done (.obj (members fs)), []⟩ := by
  rw [printObject, Reader.printFields_eq_joinFields]
  exact run_joined (printScalar sty) Scalar.toValue sty
    (fun v st hst _ hc t => Reader.run_printScalar sty st v hst hc t) h

/-- An object with distinct keys reads back as its fields in order. -/
theorem loads_printObject (sty : Style) {fs : List (String × Scalar)}
    (h : (fs.map Prod.fst).Nodup) : loads (printObject sty fs) = some (.obj (members fs)) := by
  rw [loads, run_printObject sty h]
  rfl

theorem lookup_members (k : String) (fs : List (String × Scalar)) :
    lookup (codes k.toList) (members fs)
      = (fs.find? fun f => f.1 = k).map fun f => f.2.toValue := by
  induction fs with
  | nil => rfl
  | cons f fs ih =>
    have hf : codes f.1.toList = codes k.toList ↔ f.1 = k := codes_toList_injective.eq_iff
    simp only [lookup, members, List.map_cons, List.find?_cons, hf] at ih ⊢
    by_cases h : f.1 = k
    · simp [h]
    · simpa [h] using ih

theorem lookup_cons (x : List ℕ) (f : List ℕ × Value) (fs : List (List ℕ × Value)) :
    lookup x (f :: fs) = if f.1 = x then some f.2 else lookup x fs := by
  rw [lookup, List.find?_cons]
  by_cases h : f.1 = x
  · simp [h]
  · simp [h, lookup]

theorem lookup_setKey (x k : List ℕ) (v : Value) : ∀ fs : List (List ℕ × Value),
    lookup x (setKey k v fs) = if k = x then some v else lookup x fs
  | [] => lookup_cons x (k, v) []
  | f :: fs => by
    rw [setKey]
    by_cases hf : f.1 = k
    · rw [if_pos hf, lookup_cons, lookup_cons, hf]
      by_cases hx : k = x
      · rw [if_pos hx, if_pos hx]
      · rw [if_neg hx, if_neg hx, if_neg hx]
    · rw [if_neg hf, lookup_cons, lookup_cons, lookup_setKey x k v fs]
      by_cases hx : k = x
      · rw [if_pos hx, if_neg fun hfx => hf (hfx.trans hx.symm), if_pos hx]
      · rw [if_neg hx, if_neg hx]

end Json
