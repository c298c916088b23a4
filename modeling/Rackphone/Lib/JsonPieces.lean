import Rackphone.Lib.JsonRoundTrip

/-!
# Pieces of an object cut inside a string

What the reader makes of a text that was cut out of a printed object at places inside its strings.
The first piece is never complete. A later one starts inside a string, so the first quote in it is
one that ended a string: the reader either fails or finds a value that is no object with a member.
-/

namespace Json

namespace Reader

/-- The character goes on no number. -/
def Inert (c : Char) : Prop := ∀ phase, nextPhase c phase = none

theorem inert_of_toNat {c : Char}
    (h : c.toNat ∉ [0x2b, 0x2d, 0x2e, 0x45, 0x65]) (hd : c.isDigit = false) : Inert c := by
  have hne : ∀ d : Char, d.toNat ∈ [0x2b, 0x2d, 0x2e, 0x45, 0x65] → c ≠ d := by
    rintro d hd rfl
    exact h hd
  have h0 : c ≠ '0' := by
    rintro rfl
    simp at hd
  have h1 := hne '+' (by decide)
  have h2 := hne '-' (by decide)
  have h3 := hne '.' (by decide)
  have h4 := hne 'E' (by decide)
  have h5 := hne 'e' (by decide)
  intro phase
  cases phase <;> simp [nextPhase, hd, h0, h1, h2, h3, h4, h5]

/-- After a complete text only a space goes on, and it changes nothing. -/
theorem result_step {r r' : Reader} {v : Value} {c : Char} (h : r.result = some v) (hc : Inert c)
    (hs : step r c = some r') : isSpace c = true ∧ r'.result = some v := by
  obtain ⟨mode, stack⟩ := r
  cases mode with
  | done w =>
    cases stack with
    | nil =>
      simp only [step, stepComplete] at hs
      split_ifs at hs with hsp
      obtain rfl := Option.some.inj hs
      exact ⟨hsp, h⟩
    | cons f st => simp [result] at h
  | literal rest w =>
    cases rest with
    | cons d rest => simp [result] at h
    | nil =>
      cases stack with
      | nil =>
        simp only [step, complete, stepComplete] at hs
        split_ifs at hs with hsp
        obtain rfl := Option.some.inj hs
        exact ⟨hsp, h⟩
      | cons f st => simp [result] at h
  | number phase spelling =>
    cases stack with
    | nil =>
      have hv : numberValue spelling phase = some v := h
      have hp : phase ≠ .neg := by
        rintro rfl
        simp [numberValue] at hv
      simp only [step, hc phase, hp, false_and, if_false, hv, Option.bind_some, complete,
        stepComplete] at hs
      split_ifs at hs with hsp
      obtain rfl := Option.some.inj hs
      exact ⟨hsp, rfl⟩
    | cons f st => simp [result] at h
  | _ => simp [result] at h

theorem isSpace_of_result {r r' : Reader} {v : Value} {b : Char} (h : r.result = some v)
    (hb : Inert b) {t : List Char} : ∀ (w : List Char), (∀ c ∈ w, Inert c) →
      run r (w ++ b :: t) = some r' → isSpace b = true
  | [], _, hr => by
    obtain ⟨r₁, h₁, -⟩ := Option.bind_eq_some_iff.1 hr
    exact (result_step h hb h₁).1
  | c :: w, hw, hr => by
    obtain ⟨r₁, h₁, h₂⟩ := Option.bind_eq_some_iff.1 hr
    have := (result_step h (hw c List.mem_cons_self) h₁).2
    exact isSpace_of_result this hb w (fun d hd => hw d (List.mem_cons_of_mem _ hd)) h₂

end Reader

/-- A text that goes on past `a` with something that is no space does not end at `a`. -/
theorem loads_eq_none_of_run {a w t : List Char} {b : Char} {r : Reader}
    (h : Reader.start.run (a ++ (w ++ b :: t)) = some r) (hw : ∀ c ∈ w, Reader.Inert c)
    (hb : Reader.Inert b) (hs : Reader.isSpace b = false) : loads a = none := by
  rw [Reader.run_append] at h
  obtain ⟨ra, ha, hr⟩ := Option.bind_eq_some_iff.1 h
  rw [loads, ha, Option.bind_some]
  rcases hv : ra.result with _ | v
  · rfl
  · rw [Reader.isSpace_of_result hv hb w hw hr] at hs
    exact absurd hs (by decide)

/-- The value is no object with a member. -/
def Tame (v : Value) : Prop := ∀ f fs, v ≠ .obj (f :: fs)

namespace Reader

def PlainFrames (st : List Frame) : Prop := ∀ f ∈ st, f = .key [] ∨ ∃ vs, f = .arr vs

def PlainMode : Mode → Prop
  | .value | .first | .key | .firstKey | .after | .number .. => True
  | .literal rest v => (∀ c ∈ rest, c ≠ '"' ∧ c ≠ '\\') ∧ Tame v
  | .done v => Tame v
  | .colon | .string _ | .escape _ | .hex .. => False

structure Plain (r : Reader) : Prop where
  frames : PlainFrames r.stack
  mode : PlainMode r.mode

theorem PlainFrames.cons_key {st : List Frame} (h : PlainFrames st) : PlainFrames (.key [] :: st) :=
  List.forall_mem_cons.2 ⟨.inl rfl, h⟩

theorem PlainFrames.cons_arr {st : List Frame} (h : PlainFrames st) (vs : List Value) :
    PlainFrames (.arr vs :: st) :=
  List.forall_mem_cons.2 ⟨.inr ⟨vs, rfl⟩, h⟩

theorem PlainFrames.tail {f : Frame} {st : List Frame} (h : PlainFrames (f :: st)) :
    PlainFrames st :=
  (List.forall_mem_cons.1 h).2

theorem PlainFrames.cases {st : List Frame} (h : PlainFrames st) :
    st = [] ∨ (∃ st', st = .key [] :: st' ∧ PlainFrames st')
      ∨ ∃ vs st', st = .arr vs :: st' ∧ PlainFrames st' := by
  rcases st with _ | ⟨f, st⟩
  · exact .inl rfl
  · obtain ⟨rfl | ⟨vs, rfl⟩, ht⟩ := List.forall_mem_cons.1 h
    · exact .inr (.inl ⟨st, rfl, ht⟩)
    · exact .inr (.inr ⟨vs, st, rfl, ht⟩)

theorem plain_start : Plain start := ⟨by simp [start, PlainFrames], trivial⟩

theorem PlainFrames.complete {v : Value} {st : List Frame} (h : PlainFrames st) (hv : Tame v) :
    Plain (complete v st) := by
  obtain rfl | ⟨st, rfl, -⟩ | ⟨vs, st, rfl, ht⟩ := h.cases
  · exact ⟨h, hv⟩
  · exact ⟨h, trivial⟩
  · exact ⟨ht.cons_arr _, trivial⟩

theorem plain_literalOf {c : Char} {rest : List Char} {v : Value}
    (h : literalOf c = some (rest, v)) : PlainMode (.literal rest v) := by
  unfold literalOf at h
  split_ifs at h <;> obtain ⟨rfl, rfl⟩ := Prod.mk.inj (Option.some.inj h) <;>
    exact ⟨by simp, fun _ _ => Value.noConfusion⟩

theorem PlainFrames.stepValue {c : Char} {st : List Frame} {r' : Reader} (h : PlainFrames st)
    (hc : c ≠ '"') (hs : stepValue c st = some r') : Plain r' := by
  unfold Reader.stepValue at hs
  split_ifs at hs
  · exact Option.some.inj hs ▸ ⟨h, trivial⟩
  · exact Option.some.inj hs ▸ ⟨h.cons_key, trivial⟩
  · exact Option.some.inj hs ▸ ⟨h.cons_arr _, trivial⟩
  · rcases hl : literalOf c with _ | ⟨rest, v⟩ <;> simp only [hl] at hs
    · obtain ⟨phase, -, rfl⟩ := Option.map_eq_some_iff.1 hs
      exact ⟨h, trivial⟩
    · exact Option.some.inj hs ▸ ⟨h, plain_literalOf hl⟩

theorem PlainFrames.stepKey {c : Char} {st : List Frame} {r' : Reader} (h : PlainFrames st)
    (hc : c ≠ '"') (hs : stepKey c st = some r') : Plain r' := by
  simp only [Reader.stepKey, hc, if_false] at hs
  split_ifs at hs
  obtain rfl := Option.some.inj hs
  exact ⟨h, trivial⟩

theorem PlainFrames.stepAfter {c : Char} {st : List Frame} {r' : Reader} (h : PlainFrames st)
    (hs : stepAfter c st = some r') : Plain r' := by
  unfold Reader.stepAfter at hs
  by_cases hsp : isSpace c
  · rw [if_pos hsp] at hs
    exact Option.some.inj hs ▸ ⟨h, trivial⟩
  · rw [if_neg hsp] at hs
    obtain rfl | ⟨st, rfl, ht⟩ | ⟨vs, st, rfl, ht⟩ := h.cases
    · exact absurd hs (by simp)
    all_goals simp only [] at hs
    · split_ifs at hs
      · exact Option.some.inj hs ▸ ⟨h, trivial⟩
      · exact Option.some.inj hs ▸ ht.complete fun _ _ => by simp
    · split_ifs at hs
      · exact Option.some.inj hs ▸ ⟨h, trivial⟩
      · exact Option.some.inj hs ▸ ht.complete fun _ _ => Value.noConfusion

theorem Plain.stepComplete {r r' : Reader} {c : Char} (hr : Plain r)
    (hs : stepComplete r c = some r') : Plain r' := by
  obtain ⟨mode, st⟩ := r
  have hm := hr.mode
  cases mode with
  | done v =>
    simp only [Reader.stepComplete] at hs
    split_ifs at hs
    obtain rfl := Option.some.inj hs
    exact ⟨hr.frames, hm⟩
  | _ => exact hr.frames.stepAfter hs

theorem tame_numberValue {spelling : List Char} {phase : NumPhase} {v : Value}
    (h : numberValue spelling phase = some v) : Tame v := by
  cases phase <;> simp only [numberValue, Option.some.injEq, reduceCtorEq] at h <;>
    exact h ▸ fun _ _ => Value.noConfusion

theorem Plain.step {r r' : Reader} {c : Char} (hr : Plain r) (hc : c ≠ '"')
    (hs : step r c = some r') : Plain r' := by
  obtain ⟨mode, st⟩ := r
  have hf : PlainFrames st := hr.frames
  have hm := hr.mode
  cases mode with
  | value => exact hf.stepValue hc hs
  | key => exact hf.stepKey hc hs
  | after => exact hf.stepAfter hs
  | done v => exact hr.stepComplete hs
  | first =>
    obtain rfl | ⟨st, rfl, ht⟩ | ⟨vs, st, rfl, ht⟩ := hf.cases <;> simp only [Reader.step] at hs <;>
      split_ifs at hs
    · exact Option.some.inj hs ▸ hr
    · exact Option.some.inj hs ▸ hr
    · exact Option.some.inj hs ▸ hr
    · exact Option.some.inj hs ▸ ht.complete fun _ _ => Value.noConfusion
    · exact hf.stepValue hc hs
  | firstKey =>
    obtain rfl | ⟨st, rfl, ht⟩ | ⟨vs, st, rfl, ht⟩ := hf.cases <;> simp only [Reader.step] at hs <;>
      split_ifs at hs
    · exact Option.some.inj hs ▸ hr
    · exact Option.some.inj hs ▸ hr
    · exact Option.some.inj hs ▸ ht.complete fun _ _ => by simp
    · exact hf.stepKey hc hs
    · exact Option.some.inj hs ▸ hr
  | literal rest v =>
    cases rest with
    | nil => exact (hf.complete hm.2).stepComplete hs
    | cons d rest =>
      simp only [Reader.step] at hs
      split_ifs at hs
      exact Option.some.inj hs ▸ ⟨hf, fun e he => hm.1 e (List.mem_cons_of_mem _ he), hm.2⟩
  | number phase spelling =>
    simp only [Reader.step] at hs
    split at hs
    · exact Option.some.inj hs ▸ ⟨hf, trivial⟩
    · split_ifs at hs
      · exact Option.some.inj hs ▸ ⟨hf, by simp, fun _ _ => Value.noConfusion⟩
      · obtain ⟨v, hv, hs⟩ := Option.bind_eq_some_iff.1 hs
        exact (hf.complete (tame_numberValue hv)).stepComplete hs
  | _ => exact hm.elim

theorem Plain.run {r r' : Reader} (hr : Plain r) : ∀ {t : List Char}, (∀ c ∈ t, c ≠ '"') →
    run r t = some r' → Plain r'
  | [], _, h => Option.some.inj h ▸ hr
  | c :: t, ht, h => by
    obtain ⟨r₁, h₁, h₂⟩ := Option.bind_eq_some_iff.1 h
    have := hr.step (ht c List.mem_cons_self) h₁
    exact this.run (fun d hd => ht d (List.mem_cons_of_mem _ hd)) h₂

theorem Plain.tame {r : Reader} {v : Value} (hr : Plain r) (h : r.result = some v) : Tame v := by
  obtain ⟨mode, st⟩ := r
  have hm : PlainMode mode := hr.mode
  rcases st with _ | ⟨f, st⟩
  · cases mode with
    | done w => exact Option.some.inj h ▸ hm
    | number phase spelling => exact tame_numberValue h
    | literal rest w =>
      cases rest with
      | nil => exact Option.some.inj h ▸ hm.2
      | cons d rest => exact absurd h (by simp [result])
    | _ => exact absurd h (by simp [result])
  · cases mode <;> exact absurd h (by simp [result])

theorem stepComplete_eq_none (r : Reader) {c : Char} (hsp : isSpace c = false)
    (hc : c ≠ ',' ∧ c ≠ ']' ∧ c ≠ '}') : stepComplete r c = none := by
  unfold stepComplete stepAfter
  simp only [hsp, hc.1, hc.2.1, hc.2.2, Bool.false_eq_true, if_false]
  split
  · rfl
  · split <;> rfl

theorem Plain.step_backslash {r : Reader} (hr : Plain r) : r.step '\\' = none := by
  have hvalue : ∀ st, stepValue '\\' st = none := fun _ => rfl
  have hkey : ∀ st, stepKey '\\' st = none := fun _ => rfl
  have hcomplete : ∀ r : Reader, r.stepComplete '\\' = none := fun r =>
    Reader.stepComplete_eq_none r (by decide) (by decide)
  have hsp : isSpace '\\' = false := by decide
  obtain ⟨mode, st⟩ := r
  have hm : PlainMode mode := hr.mode
  cases mode with
  | value => exact hvalue st
  | key => exact hkey st
  | after => exact hcomplete ⟨.after, st⟩
  | done v => exact hcomplete ⟨.done v, st⟩
  | first =>
    simp only [Reader.step, hsp, hvalue]
    cases st with
    | nil => rfl
    | cons f st => cases f <;> rfl
  | firstKey =>
    simp only [Reader.step, hsp, hkey]
    cases st with
    | nil => rfl
    | cons f st => cases f <;> rfl
  | literal rest v =>
    cases rest with
    | nil => exact hcomplete _
    | cons d rest =>
      have hd := (hm.1 d List.mem_cons_self).2
      simp [Reader.step, hd.symm]
  | number phase spelling =>
    have hn : nextPhase '\\' phase = none := inert_of_toNat (by decide) (by decide) phase
    simp [Reader.step, hn, hcomplete]
  | _ => exact hm.elim

theorem Plain.step_quote {r r' : Reader} (hr : Plain r) (hs : r.step '"' = some r') :
    r'.mode = .string [] := by
  have hvalue : ∀ st, stepValue '"' st = some ⟨.string [], st⟩ := fun _ => rfl
  have hkey : ∀ st, stepKey '"' st = some ⟨.string [], st⟩ := fun _ => rfl
  have hcomplete : ∀ r : Reader, r.stepComplete '"' = none := fun r =>
    Reader.stepComplete_eq_none r (by decide) (by decide)
  have hsp : isSpace '"' = false := by decide
  obtain ⟨mode, st⟩ := r
  have hm : PlainMode mode := hr.mode
  cases mode with
  | value => exact Option.some.inj hs ▸ rfl
  | key => exact Option.some.inj hs ▸ rfl
  | after => exact absurd hs (by simp [Reader.step, hcomplete])
  | done v => exact absurd hs (by simp [Reader.step, hcomplete])
  | first =>
    obtain rfl | ⟨st, rfl, -⟩ | ⟨vs, st, rfl, -⟩ := hr.frames.cases
    · exact absurd hs (by simp [Reader.step, hsp])
    · exact absurd hs (by simp [Reader.step, hsp])
    · exact Option.some.inj hs ▸ rfl
  | firstKey =>
    obtain rfl | ⟨st, rfl, -⟩ | ⟨vs, st, rfl, -⟩ := hr.frames.cases
    · exact absurd hs (by simp [Reader.step, hsp])
    · exact Option.some.inj hs ▸ rfl
    · exact absurd hs (by simp [Reader.step, hsp])
  | literal rest v =>
    cases rest with
    | nil => exact absurd hs (by simp [Reader.step, hcomplete])
    | cons d rest =>
      have hd := (hm.1 d List.mem_cons_self).1
      exact absurd hs (by simp [Reader.step, hd.symm])
  | number phase spelling =>
    have hn : nextPhase '"' phase = none := inert_of_toNat (by decide) (by decide) phase
    exact absurd hs (by simp [Reader.step, hn, hcomplete])
  | _ => exact hm.elim

theorem ne_of_isLower {k d : Char} (hk : k.isLower = true) (hd : d.isLower = false) : k ≠ d := by
  rintro rfl
  rw [hk] at hd
  exact absurd hd (by decide)

/-- After a quote that ended a string the reader takes the comma for a string, and the key's first
letter ends the reading. -/
theorem run_comma {r : Reader} (hr : r.mode = .string []) {k : Char} (hk : k.isLower = true)
    (t : List Char) : run r (',' :: '"' :: k :: t) = none := by
  have hne : ∀ d : Char, d.isLower = false → k ≠ d := fun _ => ne_of_isLower hk
  have hsp : isSpace k = false := by
    simp [isSpace, hne ' ' (by decide), hne '\t' (by decide), hne '\n' (by decide),
      hne '\r' (by decide)]
  have hcomplete : ∀ r, stepComplete r k = none := fun r =>
    stepComplete_eq_none r hsp ⟨hne ',' (by decide), hne ']' (by decide), hne '}' (by decide)⟩
  have hlast : ∀ st, step (completeString [0x2c] st) k = none := by
    intro st
    have hstr : ∀ st, step (complete (.str [0x2c]) st) k = none := fun st =>
      (step_complete st _ k).trans (hcomplete _)
    rcases st with _ | ⟨f, st⟩
    · exact hstr []
    · cases f with
      | arr vs => exact hstr (.arr vs :: st)
      | val fs key => exact hstr (.val fs key :: st)
      | key fs => simp [completeString, step, hsp, hne ':' (by decide)]
  obtain ⟨mode, st⟩ := r
  obtain rfl : mode = .string [] := hr
  have h1 : step ⟨.string [], st⟩ ',' = some ⟨.string [0x2c], st⟩ := rfl
  have h2 : step ⟨.string [0x2c], st⟩ '"' = some (completeString [0x2c] st) := rfl
  rw [run_of_step _ h1, run_of_step _ h2, run, hlast]
  rfl

end Reader

def NoQuote (t : List Char) : Prop := ∀ c ∈ t, c ≠ '"' ∧ c ≠ '\\'

/-- A text whose first quote, if any, ended a string before a key. -/
def Cut (t : List Char) : Prop :=
  NoQuote t ∨ (∃ p q, t = p ++ '\\' :: q ∧ NoQuote p)
    ∨ ∃ p k q, t = p ++ '"' :: ',' :: '"' :: k :: q ∧ NoQuote p ∧ k.isLower = true

/-- What a piece that starts inside a string can read as. -/
theorem Cut.tame {t : List Char} (ht : Cut t) {v : Value} (h : loads t = some v) : Tame v := by
  obtain ⟨r, hr, hv⟩ := Option.bind_eq_some_iff.1 h
  rcases ht with ht | ⟨p, q, rfl, hp⟩ | ⟨p, k, q, rfl, hp, hk⟩
  · exact (Reader.plain_start.run (fun c hc => (ht c hc).1) hr).tame hv
  · rw [Reader.run_append] at hr
    obtain ⟨rp, hrp, hq⟩ := Option.bind_eq_some_iff.1 hr
    have := (Reader.plain_start.run (fun c hc => (hp c hc).1) hrp).step_backslash
    rw [Reader.run, this] at hq
    exact absurd hq (by simp)
  · rw [Reader.run_append] at hr
    obtain ⟨rp, hrp, hq⟩ := Option.bind_eq_some_iff.1 hr
    obtain ⟨rq, hrq, hq⟩ := Option.bind_eq_some_iff.1 hq
    have := (Reader.plain_start.run (fun c hc => (hp c hc).1) hrp).step_quote hrq
    rw [Reader.run_comma this hk] at hq
    exact absurd hq (by simp)

theorem NoQuote.cons {c : Char} {t : List Char} (h : NoQuote t) (hc : c ≠ '"' ∧ c ≠ '\\') :
    NoQuote (c :: t) :=
  List.forall_mem_cons.2 ⟨hc, h⟩

theorem Cut.cons {c : Char} {t : List Char} (h : Cut t) (hc : c ≠ '"' ∧ c ≠ '\\') :
    Cut (c :: t) := by
  rcases h with h | ⟨p, q, rfl, hp⟩ | ⟨p, k, q, rfl, hp, hk⟩
  · exact .inl (h.cons hc)
  · exact .inr (.inl ⟨c :: p, q, rfl, hp.cons hc⟩)
  · exact .inr (.inr ⟨c :: p, k, q, rfl, hp.cons hc, hk⟩)

/-! ## Texts that start inside a string -/

variable {sty : Style}

/-- A text that starts inside a string: the rest of the string, and a key after it. -/
def Inside (sty : Style) (t : List Char) : Prop :=
  ∃ (s : List Char) (k : Char) (q : List Char),
    t = s.flatMap (escapeChar sty) ++ '"' :: ',' :: '"' :: k :: q ∧ k.isLower = true

/-- Past any character that is not ASCII the text starts inside a string. -/
def Follows (sty : Style) (t : List Char) : Prop :=
  ∀ a b q, t = a ++ b :: q → 0x80 ≤ b.toNat → Inside sty q

theorem escapeChar_cases (sty : Style) (c : Char) :
    (escapeChar sty c = [c] ∧ 0x20 ≤ c.toNat ∧ c ≠ '"' ∧ c ≠ '\\')
      ∨ ∃ q, escapeChar sty c = '\\' :: q ∧ c.toNat < 0x80
        ∧ ∀ d ∈ q, 0x20 ≤ d.toNat ∧ d.toNat < 0x80 := by
  unfold escapeChar
  split_ifs with h h'
  · refine .inr ⟨[c], rfl, ?_⟩
    rcases h with rfl | rfl | ⟨rfl, -⟩ <;> simp
  all_goals
    split
    · rename_i e he
      refine .inr ⟨[e], rfl, ?_⟩
      unfold shortEscape at he
      split_ifs at he with h1 h2 h3 h4 h5 <;> obtain rfl := Option.some.inj he <;> subst c <;> simp
  · have hdigit : ∀ n < 16, 0x20 ≤ (Nat.digitChar n).toNat ∧ (Nat.digitChar n).toNat < 0x80 := by
      decide
    have h1 := hdigit (c.toNat / 16) (by omega)
    have h2 := hdigit (c.toNat % 16) (by omega)
    refine .inr ⟨_, rfl, by omega, ?_⟩
    simp only [List.forall_mem_cons]
    exact ⟨by decide, by decide, by decide, h1, h2, by simp⟩
  · push Not at h
    exact .inl ⟨rfl, by omega, h.1, h.2.1⟩

theorem toNat_lt_of_isLower {k : Char} (hk : k.isLower = true) : k.toNat < 0x80 := by
  have h : k.val ≤ 'z'.val := by
    simp only [Char.isLower, Bool.and_eq_true, decide_eq_true_eq] at hk
    exact hk.2
  exact (UInt32.le_iff_toNat_le.1 h).trans_lt (by decide)

/-- The piece of such a text up to its end or to a character that is not ASCII. -/
theorem Inside.cut {t : List Char} (ht : Inside sty t) {l m : List Char} (h : t = l ++ m)
    (hm : ∀ b ∈ m.head?, 0x80 ≤ b.toNat) : Cut l := by
  obtain ⟨s, k, q, rfl, hk⟩ := ht
  induction s generalizing l with
  | nil =>
    have hascii : ∀ c : Char, c.toNat < 0x80 → m.head? ≠ some c := fun c hc hh =>
      absurd (hm c hh) (by omega)
    rcases l with _ | ⟨a, _ | ⟨b, _ | ⟨c, _ | ⟨d, l⟩⟩⟩⟩ <;>
      simp only [List.flatMap_nil, List.nil_append, List.cons_append, List.cons.injEq] at h
    · exact .inl fun c hc => absurd hc (by simp)
    · exact absurd (by rw [← h.2]; rfl) (hascii ',' (by decide))
    · exact absurd (by rw [← h.2.2]; rfl) (hascii '"' (by decide))
    · exact absurd (by rw [← h.2.2.2]; rfl) (hascii k (toNat_lt_of_isLower hk))
    · obtain ⟨rfl, rfl, rfl, rfl, -⟩ := h
      exact .inr (.inr ⟨[], k, l, rfl, fun c hc => absurd hc (by simp), hk⟩)
  | cons c s ih =>
    rcases l with _ | ⟨d, l⟩
    · exact .inl fun c hc => absurd hc (by simp)
    rw [List.flatMap_cons, List.append_assoc] at h
    rcases escapeChar_cases sty c with ⟨he, -, hc⟩ | ⟨e, he, -⟩ <;> rw [he] at h
    · obtain ⟨rfl, hl⟩ := List.cons.inj h
      exact (ih hl).cons hc
    · obtain ⟨rfl, -⟩ := List.cons.inj h
      exact .inr (.inl ⟨[], l, rfl, fun c hc => absurd hc (by simp)⟩)

theorem Follows.ascii_append {t : List Char} (ht : Follows sty t) : ∀ {a : List Char},
    (∀ c ∈ a, c.toNat < 0x80) → Follows sty (a ++ t)
  | [], _ => ht
  | c :: a, ha => by
    intro p b q h hb
    obtain ⟨hc, ha⟩ := List.forall_mem_cons.1 ha
    rcases p with _ | ⟨d, p⟩
    · obtain ⟨rfl, -⟩ := List.cons.inj h
      omega
    · exact ht.ascii_append ha p b q (List.cons.inj h).2 hb

theorem Follows.escaped {q : List Char} {k : Char} (hq : Follows sty ('"' :: ',' :: '"' :: k :: q))
    (hk : k.isLower = true) : ∀ s : List Char,
      Follows sty (s.flatMap (escapeChar sty) ++ '"' :: ',' :: '"' :: k :: q)
  | [] => hq
  | c :: s => by
    have ih := hq.escaped hk s
    rw [List.flatMap_cons, List.append_assoc]
    rcases escapeChar_cases sty c with ⟨he, -, -⟩ | ⟨e, he, -, hd⟩ <;> rw [he]
    · intro p b r h hb
      rcases p with _ | ⟨d, p⟩
      · exact ⟨s, k, q, (List.cons.inj h).2.symm, hk⟩
      · exact ih p b r (List.cons.inj h).2 hb
    · refine ih.ascii_append (a := '\\' :: e) fun d hd' => ?_
      rcases List.mem_cons.1 hd' with rfl | hd'
      · decide
      · exact (hd d hd').2

theorem ascii_of_mem_printNum {n : ℤ} {c : Char} (h : c ∈ printNum n) :
    0x20 ≤ c.toNat ∧ c.toNat < 0x80 := by
  have hdigit : ∀ m : ℕ, c ∈ Nat.toDigits 10 m → 0x20 ≤ c.toNat ∧ c.toNat < 0x80 := by
    intro m hm
    have hd := Nat.isDigit_of_mem_toDigits (by omega) (by omega) hm
    simp only [Char.isDigit, Bool.and_eq_true, decide_eq_true_eq] at hd
    have h0 : '0'.toNat ≤ c.toNat := UInt32.le_iff_toNat_le.1 hd.1
    have h9 : c.toNat ≤ '9'.toNat := UInt32.le_iff_toNat_le.1 hd.2
    exact ⟨le_trans (by decide) h0, h9.trans_lt (by decide)⟩
  cases n with
  | ofNat m => exact hdigit m h
  | negSucc m =>
    rcases List.mem_cons.1 h with rfl | h
    · decide
    · exact hdigit (m + 1) h

/-- What a writer writes for a string is printable, and ASCII but for the string's own
characters. -/
theorem mem_printString {s : List Char} {c : Char} (h : c ∈ printString sty s) :
    0x20 ≤ c.toNat ∧ (c.toNat < 0x80 ∨ c ∈ s) := by
  rw [printString, List.mem_append, List.mem_cons, List.mem_singleton, List.mem_flatMap] at h
  rcases h with (rfl | ⟨d, hd, hc⟩) | rfl
  · exact ⟨by decide, .inl (by decide)⟩
  · rcases escapeChar_cases sty d with ⟨he, hlt, -⟩ | ⟨q, he, -, hq⟩ <;> rw [he] at hc
    · obtain rfl := List.mem_singleton.1 hc
      exact ⟨hlt, .inr hd⟩
    · rcases List.mem_cons.1 hc with rfl | hc
      · exact ⟨by decide, .inl (by decide)⟩
      · exact ⟨(hq c hc).1, .inl (hq c hc).2⟩
  · exact ⟨by decide, .inl (by decide)⟩

theorem mem_printString_of_mem {s : List Char} {c : Char} (h : c ∈ s) (hc : 0x80 ≤ c.toNat) :
    c ∈ printString sty s := by
  refine List.mem_append_left _ (List.mem_cons_of_mem _ (List.mem_flatMap.2 ⟨c, h, ?_⟩))
  rcases escapeChar_cases sty c with ⟨he, -⟩ | ⟨q, -, hlt, -⟩
  · rw [he]
    exact List.mem_singleton_self c
  · omega

def IsKey (k : String) : Prop :=
  (∃ c q, k.toList = c :: q ∧ c.isLower = true) ∧ ∀ c ∈ k.toList, 0x20 ≤ c.toNat ∧ c.toNat < 0x80

theorem ascii_of_mem_key {k : String} (hk : IsKey k) {c : Char}
    (h : c ∈ printString sty k.toList ++ sty.colon) : c.toNat < 0x80 := by
  rcases List.mem_append.1 h with h | h
  · exact (mem_printString h).2.elim id fun h => (hk.2 c h).2
  · rw [Style.colon, Style.gap] at h
    split at h <;> simp only [List.mem_cons, List.not_mem_nil, or_false] at h
    · rcases h with rfl | rfl <;> decide
    · exact h ▸ by decide

theorem escapeChar_of_isLower {k : Char} (hk : k.isLower = true) : escapeChar sty k = [k] := by
  have hne : ∀ d : Char, d.isLower = false → k ≠ d := fun _ => Reader.ne_of_isLower hk
  have h : 0x20 ≤ k.toNat := by
    have h : 'a'.val ≤ k.val := by
      simp only [Char.isLower, Bool.and_eq_true, decide_eq_true_eq] at hk
      exact hk.1
    exact le_trans (by decide) (UInt32.le_iff_toNat_le.1 h)
  simp [escapeChar, shortEscape, hne '"' (by decide), hne '\\' (by decide), hne '/' (by decide),
    hne '\t' (by decide), hne '\n' (by decide), hne '\r' (by decide),
    hne (Char.ofNat 0x08) (by decide), hne (Char.ofNat 0x0c) (by decide)]
  omega

theorem printFields_cons (f : String × Scalar) {fs : List (String × Scalar)} (h : fs ≠ []) :
    printFields sty (f :: fs) = printField sty f ++ (sty.comma ++ printFields sty fs) := by
  rcases fs with _ | ⟨g, fs⟩
  · exact absurd rfl h
  · exact List.append_assoc _ _ _

theorem printFields_eq_cons (sty : Style) {fs : List (String × Scalar)} (hne : fs ≠ [])
    (hk : ∀ f ∈ fs, IsKey f.1) (t : List Char) :
    ∃ k q, printFields sty fs ++ t = '"' :: k :: q ∧ k.isLower = true := by
  obtain ⟨f, fs, rfl⟩ := List.exists_cons_of_ne_nil hne
  obtain ⟨⟨k, q, hf, hlow⟩, -⟩ := hk f List.mem_cons_self
  have hrest : ∃ r, printFields sty (f :: fs) = printField sty f ++ r := by
    rcases fs with _ | ⟨g, fs⟩
    · exact ⟨[], (List.append_nil _).symm⟩
    · exact ⟨_, printFields_cons f (by simp)⟩
  obtain ⟨r, hr⟩ := hrest
  rw [hr, printField, printString, hf, List.flatMap_cons, escapeChar_of_isLower hlow]
  exact ⟨k, _, rfl, hlow⟩

/-- In an object whose fields end with a number, past any character that is not ASCII the text
starts inside a string. -/
theorem follows_printFields (hs : sty.spaced = false) {k : String} {n : ℤ} :
    ∀ fs : List (String × Scalar), (∀ f ∈ fs ++ [(k, .num n)], IsKey f.1) →
      Follows sty (printFields sty (fs ++ [(k, .num n)]) ++ ['}'])
  | [], hk => by
    have hnil : Follows sty [] := fun a b q h => absurd h (by simp)
    have := hnil.ascii_append (a := printFields sty [(k, .num n)] ++ ['}']) fun c hc => by
      rcases List.mem_append.1 hc with hc | hc
      · rcases List.mem_append.1 hc with hc | hc
        · exact ascii_of_mem_key (hk _ (by simp)) hc
        · exact (ascii_of_mem_printNum hc).2
      · exact List.mem_singleton.1 hc ▸ by decide
    simpa using this
  | f :: fs, hk => by
    have hk' : ∀ g ∈ fs ++ [(k, .num n)], IsKey g.1 := fun g hg => hk g (by simp at hg ⊢; tauto)
    have ih := follows_printFields hs fs hk'
    obtain ⟨l, q, hq, hl⟩ := printFields_eq_cons sty (by simp) hk' ['}']
    have hcomma : sty.comma = [','] := by simp [Style.comma, Style.gap, hs]
    rw [List.cons_append, printFields_cons f (by simp), hcomma, List.append_assoc,
      List.append_assoc, List.singleton_append]
    rw [hq] at ih ⊢
    have hname : ∀ c ∈ printString sty f.1.toList ++ sty.colon, c.toNat < 0x80 := fun c hc =>
      ascii_of_mem_key (hk f (by simp)) hc
    have htail : Follows sty (',' :: '"' :: l :: q) :=
      ih.ascii_append (a := [',']) (by simp)
    rw [printField, List.append_assoc]
    refine Follows.ascii_append ?_ hname
    rcases f.2 with _ | m | s
    · exact htail.ascii_append (a := ['n', 'u', 'l', 'l']) (by simp)
    · exact htail.ascii_append fun c hc => (ascii_of_mem_printNum hc).2
    · have h := Follows.escaped (htail.ascii_append (a := ['"']) (by simp)) hl s.toList
      have := h.ascii_append (a := ['"']) (by simp)
      simpa [printScalar, printString] using this

theorem mem_printFields {c : Char} : ∀ {fs : List (String × Scalar)}, c ∈ printFields sty fs →
    (∃ f ∈ fs, c ∈ printField sty f) ∨ c ∈ sty.comma
  | [], h => absurd h (by simp [printFields])
  | [f], h => .inl ⟨f, by simp, h⟩
  | f :: g :: fs, h => by
    rw [printFields_cons f (by simp), List.mem_append, List.mem_append] at h
    rcases h with h | h | h
    · exact .inl ⟨f, by simp, h⟩
    · exact .inr h
    · rcases mem_printFields h with ⟨f', hf, h⟩ | h
      · exact .inl ⟨f', List.mem_cons_of_mem _ hf, h⟩
      · exact .inr h

theorem printField_subset {f : String × Scalar} {c : Char} (hc : c ∈ printField sty f) :
    ∀ {fs : List (String × Scalar)}, f ∈ fs → c ∈ printFields sty fs
  | [g], h => by
    obtain rfl := List.mem_singleton.1 h
    exact hc
  | g :: g' :: fs, h => by
    rw [printFields_cons g (by simp), List.mem_append, List.mem_append]
    rcases List.mem_cons.1 h with rfl | h
    · exact .inl hc
    · exact .inr (.inr (printField_subset hc h))

theorem ascii_of_mem_gap {c : Char} (h : c ∈ sty.gap) : 0x20 ≤ c.toNat ∧ c.toNat < 0x80 := by
  unfold Style.gap at h
  split at h
  · exact List.mem_singleton.1 h ▸ by decide
  · exact absurd h (by simp)

theorem mem_printObject {fs : List (String × Scalar)} (hk : ∀ f ∈ fs, IsKey f.1) {c : Char}
    (h : c ∈ printObject sty fs) :
    0x20 ≤ c.toNat ∧ (c.toNat < 0x80 ∨ ∃ f ∈ fs, ∃ s, f.2 = .str s ∧ c ∈ s.toList) := by
  have hascii : 0x20 ≤ c.toNat ∧ c.toNat < 0x80 →
      0x20 ≤ c.toNat ∧ (c.toNat < 0x80 ∨ ∃ f ∈ fs, ∃ s, f.2 = .str s ∧ c ∈ s.toList) :=
    fun h => ⟨h.1, .inl h.2⟩
  rw [printObject, List.mem_append, List.mem_cons, List.mem_singleton] at h
  rcases h with (rfl | h) | rfl
  · exact hascii (by decide)
  · rcases mem_printFields h with ⟨f, hf, h⟩ | h
    · rw [printField, List.mem_append, List.mem_append] at h
      rcases h with (h | h) | h
      · have hm := mem_printString h
        exact hascii ⟨hm.1, hm.2.elim id fun h => ((hk f hf).2 c h).2⟩
      · rcases List.mem_cons.1 h with rfl | h
        · exact hascii (by decide)
        · exact hascii (ascii_of_mem_gap h)
      · rcases hs : f.2 with _ | n | s <;> rw [hs] at h
        · have : ∀ d ∈ ['n', 'u', 'l', 'l'], 0x20 ≤ d.toNat ∧ d.toNat < 0x80 := by simp
          exact hascii (this c h)
        · exact hascii (ascii_of_mem_printNum h)
        · have hm := mem_printString h
          exact ⟨hm.1, hm.2.imp id fun h => ⟨f, hf, s, hs, h⟩⟩
    · rcases List.mem_cons.1 h with rfl | h
      · exact hascii (by decide)
      · exact hascii (ascii_of_mem_gap h)
  · exact hascii (by decide)

theorem mem_printObject_of_mem {fs : List (String × Scalar)} {f : String × Scalar} (hf : f ∈ fs)
    {s : String} (hs : f.2 = .str s) {c : Char} (h : c ∈ s.toList) (hc : 0x80 ≤ c.toNat) :
    c ∈ printObject sty fs := by
  refine List.mem_append_left _ (List.mem_cons_of_mem _ (printField_subset ?_ hf))
  rw [printField, hs]
  exact List.mem_append_right _ (mem_printString_of_mem h hc)

end Json
