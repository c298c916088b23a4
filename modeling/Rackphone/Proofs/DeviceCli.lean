import Rackphone.DeviceCli
import Rackphone.Proofs.Reload
import Rackphone.Proofs.Sender

/-!
# What reaches a unit

The root shell reads back the arguments it was given, whatever they are, so that the app is asked
for exactly what the gateway was; and its reply comes back as it was written.
-/

namespace Rackphone

namespace DeviceCli

open CommandReceiver (App AppState Command Chance Text PKG intText)

/-! ## The command line -/

theorem plainWords_isSafe : Shell.PlainWords isSafe := by
  intro c hc
  refine ⟨?_, ?_, ?_, ?_, ?_⟩ <;> rintro rfl <;> exact absurd hc (by decide)

/-- The root shell is given the arguments as they are. -/
theorem words_deviceCommand (arguments : List Text) :
    Shell.words isSafe (deviceCommand arguments) = some ("rackphone".toList :: arguments) :=
  Shell.words_join_quote plainWords_isSafe _

variable {K : CommandReceiver.KotlinText} {c : Circumstances} {u : Companion} {unit : Text}

/-- An argument with a NUL in it never leaves the host. -/
theorem runResolved_nul {σ : Type*} (runAsRoot : σ → Text → σ × Option Text) (resolved : Bool)
    (s : σ) {arguments : List Text} {a : Text} (ha : a ∈ arguments) (h0 : Char.ofNat 0 ∈ a) :
    runResolved runAsRoot resolved s arguments
      = (s, .error (if resolved then .value else .adb)) := by
  cases resolved with
  | false => rfl
  | true =>
    rw [runResolved, if_pos rfl, runDeviceCli, if_pos ⟨a, ha, h0⟩]
    rfl

theorem dispatch_action (id : Text) (rest : List Text) :
    dispatch (action (id :: rest)) = .action "companion".toList (id :: rest) := by
  simp only [dispatch, action, ↓reduceIte]
  rfl

/-- What an action with a reply does. -/
theorem execute_appCmd (K : CommandReceiver.KotlinText) (u : Companion) (c : Circumstances)
    {id : Text} {rest : List Text} {name : String} {args : List (Text × Text)}
    (h : actionSh (id :: rest) = some (.appCmd name args)) :
    u.execute K (deviceCommand (action (id :: rest))) c
      = ((u.appCmd K name.toList args c).1, some (u.appCmd K name.toList args c).2) := by
  unfold Companion.execute
  rw [words_deviceCommand]
  simp only [↓reduceIte, dispatch_action, h, true_or, ActionRun.appCmd]

/-! ## The reply -/

theorem after_append (p t : Text) : after p (p ++ t) = some t := by
  rw [after, if_pos (List.prefix_append p t), List.drop_left]

theorem sedData_broadcasting (intent : Text) :
    sedData ("Broadcasting: ".toList ++ intent) = none := by
  have hne : ¬ completed <+: "Broadcasting: ".toList ++ intent := by
    rintro ⟨rest, h⟩
    have hblank : (completed ++ rest)[9]? = some ' ' := rfl
    have hletter : ("Broadcasting: ".toList ++ intent)[9]? = some 'i' := rfl
    rw [h, hletter] at hblank
    exact absurd hblank (by decide)
  rw [sedData, after, if_neg hne]
  rfl

theorem sedData_completed (resultCode : ℕ) (data : Text) :
    sedData (completed ++ (Nat.toDigits 10 resultCode ++ (", data=\"".toList ++ (data ++ ['"']))))
      = some data := by
  have hdigits : ∀ c ∈ Nat.toDigits 10 resultCode, c.isDigit = true :=
    fun c hc => Nat.isDigit_of_mem_toDigits (by decide) (by decide) hc
  have hcomma : (", data=\"".toList ++ (data ++ ['"'])).dropWhile Char.isDigit
      = ", data=\"".toList ++ (data ++ ['"']) := rfl
  rw [sedData, after_append, Option.bind_some, List.dropWhile_append_of_pos hdigits, hcomma,
    after_append, Option.bind_some, List.getLast?_concat, if_pos rfl, List.dropLast_concat]

/-- One line of data comes through `am` and `sed`. -/
theorem replyOf_amLines {intent data : Text} (hintent : '\n' ∉ intent) (hdata : '\n' ∉ data)
    (resultCode : ℕ) :
    replyOf (printed (amLines intent resultCode data)) = data ++ ['\n'] := by
  have hlines : ∀ line ∈ amLines intent resultCode data, ∀ c ∈ line,
      (fun c => decide (c = '\n')) c = false := by
    have hdigits : '\n' ∉ Nat.toDigits 10 resultCode := fun h =>
      absurd (Nat.isDigit_of_mem_toDigits (by decide) (by decide) h) (by decide)
    have hcompleted : '\n' ∉ completed := by decide
    have hbroadcasting : '\n' ∉ "Broadcasting: ".toList := by decide
    have hname : '\n' ∉ ", data=\"".toList := by decide
    simp only [amLines, List.mem_cons, List.not_mem_nil, or_false, forall_eq_or_imp, forall_eq,
      decide_eq_false_iff_not]
    refine ⟨fun c hc hn => ?_, fun c hc hn => ?_⟩ <;> subst hn
    · exact (List.mem_append.1 hc).elim hbroadcasting hintent
    · simp only [List.mem_append, List.mem_singleton, hcompleted, hdigits, hname, hdata,
        false_or] at hc
      exact absurd hc (by decide)
  have hsplit : Lines.split (fun c => decide (c = '\n')) (printed (amLines intent resultCode data))
      = amLines intent resultCode data := by
    rw [printed, Lines.split_flatMap (by decide) hlines, List.map_id']
  rw [replyOf, hsplit]
  simp only [amLines, List.filterMap_cons, sedData_broadcasting, sedData_completed,
    List.filterMap_nil]
  simp [printed]

/-! ## What the host makes of a request -/

section Spec

variable {σ : Type*} (run : σ → List Text → σ × Except RunError Text) (unit : Text) (s : σ)

theorem sendSms_fst (destination body : Text) (sim : Option ℤ) :
    (sendSms run unit s destination body sim).1
      = if body ≠ [] ∧ isDestination destination ∧ ¬ BadSim sim then
          (run s (action (["send".toList, destination, body] ++ (sim.map intText).toList))).1
        else s := by
  unfold sendSms
  by_cases hbody : body = []
  · rw [if_pos hbody, if_neg fun h => h.1 hbody]
  by_cases hto : isDestination destination = false
  · rw [if_neg hbody, if_pos hto, if_neg fun h => by simp [hto] at h]
  by_cases hsim : BadSim sim
  · rw [if_neg hbody, if_neg hto, if_pos hsim, if_neg fun h => h.2.2 hsim]
  rw [if_neg hbody, if_neg hto, if_neg hsim, if_pos ⟨hbody, by simpa using hto, hsim⟩]
  rcases run s _ with ⟨s', (_ | _) | _⟩ <;> rfl

theorem runCall_fst (arguments : List Text) :
    (runCall run unit s arguments).1 = (run s (action arguments)).1 := by
  unfold runCall
  rcases run s _ with ⟨s', (_ | _) | _⟩ <;> rfl

theorem control_fst (verb : Text) :
    (control run unit s verb).1 = (run s (action [verb])).1 := by
  rw [← runCall_fst run unit]
  unfold control
  rcases runCall run unit s _ with ⟨s', _ | _⟩ <;> rfl

theorem dialCall_fst (destination : Text) (sim : Option ℤ) :
    (dialCall run unit s destination sim).1
      = if isCallDestination destination ∧ ¬ BadSim sim then
          (run s (action (["dial".toList, destination] ++ (sim.map intText).toList))).1
        else s := by
  rw [← runCall_fst run unit]
  unfold dialCall
  by_cases hto : isCallDestination destination = false
  · rw [if_pos hto, if_neg fun h => by simp [hto] at h]
  by_cases hsim : BadSim sim
  · rw [if_neg hto, if_pos hsim, if_neg fun h => h.2 hsim]
  rw [if_neg hto, if_neg hsim, if_pos ⟨by simpa using hto, hsim⟩]
  rcases runCall run unit s _ with ⟨s', _ | _⟩ <;> rfl

theorem endCall_fst : (endCall run unit s).1 = (run s (action ["end".toList])).1 := by
  rw [← runCall_fst run unit]
  unfold endCall
  rcases runCall run unit s _ with ⟨s', _ | _⟩ <;> rfl

theorem sendDtmf_fst (digits : Text) :
    (sendDtmf run unit s digits).1
      = if isDtmf digits then (run s (action ["dtmf".toList, digits])).1 else s := by
  rw [← runCall_fst run unit]
  unfold sendDtmf
  by_cases hdigits : isDtmf digits = false
  · rw [if_pos hdigits, if_neg (by simp [hdigits])]
  rw [if_neg hdigits, if_pos (by simpa using hdigits)]
  rcases runCall run unit s _ with ⟨s', _ | _⟩ <;> rfl

end Spec

/-! ## What the app makes of a broadcast -/

theorem authenticates_hostBroadcast {s : App} (hpub : s.token ≠ [] ∧ s.appToken = s.token)
    (name : Text) {args : List (Text × Text)}
    (hargs : ∀ a ∈ args, a.1 ≠ CommandReceiver.EXTRA_TOKEN) (w : Chance) :
    s.authenticates (s.hostBroadcast name args w) = true := by
  have htoken := CommandReceiver.extrasOf_token hargs s.token
  simp only [App.authenticates, App.hostBroadcast, hpub.2, htoken, hpub.1, decide_true, ne_eq,
    not_false_eq_true, Bool.and_self]

/-! ## A request on its way -/

namespace Request

def arguments : Request → List Text
  | send destination body sim => ["send".toList, destination, body] ++ (sim.map intText).toList
  | answer => ["answer".toList]
  | reject => ["reject".toList]
  | dial destination sim => ["dial".toList, destination] ++ (sim.map intText).toList
  | endCall => ["end".toList]
  | dtmf digits => ["dtmf".toList, digits]

/-- The action of the broadcast, as the plugin and as the app name it. -/
def names : Request → String × Text
  | send .. => ("SEND", CommandReceiver.ACTION_SEND)
  | answer => ("ANSWER", CommandReceiver.ACTION_ANSWER)
  | reject => ("REJECT", CommandReceiver.ACTION_REJECT)
  | dial .. => ("DIAL", CommandReceiver.ACTION_DIAL)
  | endCall => ("END", CommandReceiver.ACTION_END)
  | dtmf _ => ("DTMF", CommandReceiver.ACTION_DTMF)

theorem names_spec (r : Request) : PKG ++ '.' :: r.names.1.toList = r.names.2
    ∧ r.names.2 ≠ CommandReceiver.ACTION_SETUP ∧ r.names.2 ≠ CommandReceiver.ACTION_CONFIG := by
  have hall : ∀ n ∈ [("SEND", CommandReceiver.ACTION_SEND),
      ("ANSWER", CommandReceiver.ACTION_ANSWER), ("REJECT", CommandReceiver.ACTION_REJECT),
      ("DIAL", CommandReceiver.ACTION_DIAL), ("END", CommandReceiver.ACTION_END),
      ("DTMF", CommandReceiver.ACTION_DTMF)], PKG ++ '.' :: n.1.toList = n.2
        ∧ n.2 ≠ CommandReceiver.ACTION_SETUP ∧ n.2 ≠ CommandReceiver.ACTION_CONFIG := by decide
  refine hall _ ?_
  cases r <;> simp [names]

def simExtra (sim : Option ℤ) : List (Text × Text) :=
  (sim.map fun n => ("sub".toList, intText n)).toList

def extras : Request → List (Text × Text)
  | send destination body sim =>
    [("to".toList, destination), ("body".toList, body)] ++ simExtra sim
  | dial destination sim => [("to".toList, destination)] ++ simExtra sim
  | dtmf digits => [("digits".toList, digits)]
  | answer | reject | endCall => []

variable {r : Request}

theorem digits_intText {n : ℤ} (hn : ¬ n < 0) :
    intText n ≠ [] ∧ ∀ c ∈ intText n, c.isDigit = true := by
  obtain ⟨m, rfl⟩ := Int.eq_ofNat_of_zero_le (not_lt.1 hn)
  have htext : intText m = Nat.toDigits 10 m := by
    show (toString (Int.ofNat m)).toList = Nat.toDigits 10 m
    simp [toString, Int.repr, Nat.repr]
  rw [htext]
  exact ⟨Nat.toDigits_ne_nil, fun c hc => Nat.isDigit_of_mem_toDigits (by decide) (by decide) hc⟩

theorem simArg_intText {n : ℤ} (hn : ¬ n < 0) : simArg (intText n) = true := by
  obtain ⟨hne, hdigits⟩ := digits_intText hn
  simp only [simArg, hne, ne_eq, not_false_eq_true, decide_true, Bool.true_and, List.all_eq_true]
  intro c hc
  simpa [Char.isDigit, Char.le_def] using hdigits c hc

theorem not_neg {sim : Option ℤ} (h : ¬ BadSim sim) {n : ℤ} (hn : sim = some n) : ¬ n < 0 :=
  fun hneg => h ⟨n, hn, hneg⟩

theorem actionSh_arguments (h : r.Valid) :
    actionSh r.arguments = some (.appCmd r.names.1 r.extras) := by
  cases r with
  | send destination body sim =>
    rcases sim with _ | n
    · rfl
    · have hsim := simArg_intText (not_neg h.2.2.1 rfl)
      show (if simArg (intText n) then some (ActionRun.appCmd "SEND" _) else none) = _
      rw [if_pos hsim]
      rfl
  | dial destination sim =>
    rcases sim with _ | n
    · rfl
    · have hsim := simArg_intText (not_neg h.2 rfl)
      show (if simArg (intText n) then some (ActionRun.appCmd "DIAL" _) else none) = _
      rw [if_pos hsim]
      rfl
  | answer | reject | endCall | dtmf => rfl

theorem extras_no_token : ∀ a ∈ r.extras, a.1 ≠ CommandReceiver.EXTRA_TOKEN := by
  have hsim : ∀ sim, ∀ a ∈ simExtra sim, a.1 ≠ CommandReceiver.EXTRA_TOKEN := by
    rintro (_ | n) a ha
    · simp [simExtra] at ha
    · obtain rfl : a = ("sub".toList, intText n) := by simpa [simExtra] using ha
      exact (by decide : "sub".toList ≠ "token".toList)
  have hto : "to".toList ≠ CommandReceiver.EXTRA_TOKEN := by decide
  have hbody : "body".toList ≠ CommandReceiver.EXTRA_TOKEN := by decide
  have hdigits : "digits".toList ≠ CommandReceiver.EXTRA_TOKEN := by decide
  intro a ha
  cases r with
  | send destination body sim =>
    rcases List.mem_append.1 ha with ha | ha
    · rcases List.mem_pair.1 ha with rfl | rfl
      · exact hto
      · exact hbody
    · exact hsim sim a ha
  | dial destination sim =>
    rcases List.mem_append.1 ha with ha | ha
    · obtain rfl := List.mem_singleton.1 ha
      exact hto
    · exact hsim sim a ha
  | dtmf digits =>
    obtain rfl := List.mem_singleton.1 ha
    exact hdigits
  | answer | reject | endCall => exact absurd ha List.not_mem_nil

theorem readInt_sim (hK : K.Lawful) {n : ℤ} (hn : ¬ n < 0) :
    CommandReceiver.readInt K (intText n) = (some n).filter fun n => n < 2 ^ 31 := by
  obtain ⟨m, rfl⟩ := Int.eq_ofNat_of_zero_le (not_lt.1 hn)
  exact CommandReceiver.readInt_natural hK m

/-- The app reads off the broadcast what the request says. -/
theorem command_hostBroadcast (hK : K.Lawful) (h : r.Valid) (s : App) (w : Chance) :
    (s.hostBroadcast r.names.1.toList r.extras w).command K s.settings r.names.2
      = some (r.command w.newId) := by
  cases r with
  | send destination body sim =>
    rcases sim with _ | n
    · rfl
    · have hread := readInt_sim hK (not_neg h.2.2.1 rfl)
      show some (Command.send destination body
        ((CommandReceiver.readInt K (intText n)).getD CommandReceiver.SUB_DEFAULT) w.newId) = _
      rw [hread]
      rfl
  | dial destination sim =>
    rcases sim with _ | n
    · rfl
    · have hread := readInt_sim hK (not_neg h.2 rfl)
      show some (Command.dial destination
        ((CommandReceiver.readInt K (intText n)).getD CommandReceiver.SUB_DEFAULT)) = _
      rw [hread]
      rfl
  | answer | reject | endCall | dtmf => rfl

/-- Only the text of a message can have a NUL in it. -/
theorem nul_free (h : r.Valid) : ∀ a ∈ r.arguments, Char.ofNat 0 ∉ a := by
  have hdigit : ∀ {t : Text}, (∀ c ∈ t, c.isDigit = true) → Char.ofNat 0 ∉ t :=
    fun ht h0 => absurd (ht _ h0) (by decide)
  have hsim : ∀ {sim : Option ℤ}, ¬ BadSim sim → ∀ a ∈ (sim.map intText).toList,
      Char.ofNat 0 ∉ a := by
    rintro (_ | n) hbad a ha
    · simp at ha
    · obtain rfl : a = intText n := by simpa using ha
      exact hdigit (digits_intText (not_neg hbad rfl)).2
  have hnumber : ∀ {t : Text}, isNumber t = true → Char.ofNat 0 ∉ t := by
    intro t ht h0
    simp only [isNumber, Bool.and_eq_true, List.all_eq_true] at ht
    rcases t with _ | ⟨c, t⟩
    · exact absurd h0 List.not_mem_nil
    · by_cases hplus : c = '+'
      · subst hplus
        rcases List.mem_cons.1 h0 with h0 | h0
        · exact absurd h0 (by decide)
        · exact absurd (ht.2 _ (by simpa using h0)) (by decide)
      · exact absurd (ht.2 _ (by simpa [hplus] using h0)) (by decide)
  have hword : ∀ w ∈ ["send".toList, "dial".toList, "answer".toList, "reject".toList,
      "end".toList, "dtmf".toList], Char.ofNat 0 ∉ w := by decide
  intro a ha
  cases r with
  | send destination body sim =>
    obtain ⟨-, hto, hbad, hbody⟩ := h
    simp only [arguments, List.cons_append, List.nil_append, List.mem_cons] at ha
    rcases ha with rfl | rfl | rfl | ha
    · exact hword _ (by simp)
    · exact hnumber hto
    · exact hbody
    · exact hsim hbad a ha
  | dial destination sim =>
    obtain ⟨hto, hbad⟩ := h
    simp only [isCallDestination, Bool.and_eq_true] at hto
    simp only [arguments, List.cons_append, List.nil_append, List.mem_cons] at ha
    rcases ha with rfl | rfl | ha
    · exact hword _ (by simp)
    · exact hnumber hto.1
    · exact hsim hbad a ha
  | dtmf digits =>
    simp only [Valid, isDtmf, Bool.and_eq_true, List.all_eq_true] at h
    simp only [arguments, List.mem_cons, List.not_mem_nil, or_false] at ha
    rcases ha with rfl | rfl
    · exact hword _ (by simp)
    · exact fun h0 => absurd (h.2 _ h0) (by decide)
  | answer | reject | endCall =>
    obtain rfl := List.mem_singleton.1 ha
    exact hword _ (by simp)

/-- What a request leaves of the unit is what its command does, where it is valid. -/
theorem perform_fst (unit : Text) (u : Companion) (r : Request) (c : Circumstances) :
    (r.perform K unit u c).1
      = if r.Valid then
          (runResolved (Companion.runAsRoot K c) c.resolved u (action r.arguments)).1
        else u := by
  cases r with
  | send destination body sim =>
    rw [perform, sendSms_fst]
    by_cases h : body ≠ [] ∧ isDestination destination ∧ ¬ BadSim sim
    · rw [if_pos h]
      by_cases hnul : Char.ofNat 0 ∈ body
      · have hbody : body ∈ action (Request.send destination body sim).arguments := by
          simp [action, arguments]
        rw [if_neg fun hv => hv.2.2.2 hnul]
        exact congrArg Prod.fst (runResolved_nul _ _ u hbody hnul)
      · rw [if_pos ⟨h.1, h.2.1, h.2.2, hnul⟩]
        rfl
    · rw [if_neg h, if_neg fun hv => h ⟨hv.1, hv.2.1, hv.2.2.1⟩]
  | dial destination sim => exact dialCall_fst ..
  | dtmf digits => exact sendDtmf_fst ..
  | answer => exact (control_fst ..).trans (if_pos trivial).symm
  | reject => exact (control_fst ..).trans (if_pos trivial).symm
  | endCall => exact (endCall_fst ..).trans (if_pos trivial).symm

/-- A valid request is one command of the app, with what the app replies. -/
theorem run_arguments (K : CommandReceiver.KotlinText) (h : r.Valid) (u : Companion)
    (c : Circumstances) :
    runResolved (Companion.runAsRoot K c) c.resolved u (action r.arguments)
      = if c.arrives then
          ((u.appCmd K r.names.1.toList r.extras c).1,
            if c.answered then .ok (u.appCmd K r.names.1.toList r.extras c).2 else .error .adb)
        else (u, .error .adb) := by
  have hnul : ¬ ∃ a ∈ action r.arguments, Char.ofNat 0 ∈ a := by
    rintro ⟨a, ha, h0⟩
    have hwords : Char.ofNat 0 ∉ "action".toList ∧ Char.ofNat 0 ∉ "companion".toList := by decide
    rcases List.mem_cons.1 ha with rfl | ha
    · exact hwords.1 h0
    · rcases List.mem_cons.1 ha with rfl | ha
      · exact hwords.2 h0
      · exact nul_free h a ha h0
  rw [runResolved, runDeviceCli, if_neg hnul, Companion.runAsRoot, Circumstances.arrives]
  have hne : r.arguments ≠ [] := by cases r <;> simp [arguments]
  obtain ⟨id, rest, hargs⟩ := List.exists_cons_of_ne_nil hne
  have hexecute := execute_appCmd K u c (hargs ▸ actionSh_arguments h)
  rw [hargs]
  by_cases hresolved : c.resolved
  · by_cases hreached : c.reached
    · rw [if_pos hresolved, if_pos hreached, if_pos (by simp [hresolved, hreached]), hexecute]
      by_cases hanswered : c.answered <;> simp [hanswered]
    · rw [if_pos hresolved, if_neg hreached, if_neg (by simp [hreached])]
  · rw [if_neg hresolved, if_neg (by simp [hresolved])]

end Request

/-! ## One request -/

/-- The sender after a request the app was asked to send. -/
def sentTo (K : CommandReceiver.KotlinText) (u : Companion) (destination body : Text)
    (sim : Option ℤ) (c : Circumstances) : Sender :=
  u.sender.step K.toKotlinChars (.send ⟨String.ofList destination, String.ofList body,
    Request.subOf sim, "host", String.ofList c.newId⟩ c.env c.now)

/-- What a valid request leaves of a unit it reaches. -/
def served (K : CommandReceiver.KotlinText) (u : Companion) (r : Request) (c : Circumstances) :
    Companion where
  toAppState := { u.toAppState with performed := u.performed ++ [r.command c.newId] }
  sender :=
    match r with
    | .send destination body sim => sentTo K u destination body sim c
    | _ => u.sender

/-- What the app answers it. -/
def answerTo (K : CommandReceiver.KotlinText) (u : Companion) (r : Request) (c : Circumstances) :
    List (String × Json.Scalar) :=
  match r with
  | .send destination body sim => sendRecord (sentTo K u destination body sim c)
  | r => c.answer (some (r.command c.newId))

theorem rejectedSends_hostBroadcast {r : Request} (hr : ∀ destination body sim,
    r ≠ .send destination body sim) (s : App) (w : Chance) :
    (s.hostBroadcast r.names.1.toList r.extras w).rejectedSends = 0 := by
  have hall : ∀ n ∈ ["ANSWER", "REJECT", "DIAL", "END", "DTMF"],
      PKG ++ '.' :: n.toList ≠ CommandReceiver.ACTION_SEND
        ∧ PKG ++ '.' :: n.toList ≠ CommandReceiver.ACTION_KEEPALIVE := by decide
  have hname : r.names.1 ∈ ["ANSWER", "REJECT", "DIAL", "END", "DTMF"] := by
    cases r
    case send => exact absurd rfl (hr _ _ _)
    all_goals simp [Request.names]
  obtain ⟨hsend, hkeepalive⟩ := hall _ hname
  exact if_neg (by simp [App.hostBroadcast, hsend, hkeepalive])

theorem receive_request (hK : K.Lawful) (hpub : u.Published) {r : Request} (h : r.Valid)
    (c : Circumstances) :
    u.receive K (u.app.hostBroadcast r.names.1.toList r.extras c.toChance) c
      = (served K u r c, answerTo K u r c) := by
  obtain ⟨hname, hsetup, hconfig⟩ := r.names_spec
  have hdrop : ∀ commands, (u.app.performed ++ commands).drop u.performed.length = commands :=
    fun commands => List.drop_left
  have hauth : u.app.authenticates
      (u.app.hostBroadcast r.names.1.toList r.extras c.toChance) = true :=
    authenticates_hostBroadcast (s := u.app) hpub _ Request.extras_no_token _
  rw [Companion.receive, CommandReceiver.onReceive_command (congrArg some hname) hauth hsetup
    hconfig (Request.command_hostBroadcast hK h u.app c.toChance)]
  simp only [hdrop]
  by_cases hr : ∃ destination body sim, r = .send destination body sim
  · obtain ⟨destination, body, sim, rfl⟩ := hr
    rfl
  · rw [rejectedSends_hostBroadcast fun d b s h => hr ⟨d, b, s, h⟩]
    have hsame : u.app.rejected + Int32.ofNat 0 = u.sender.rejected := Int32.add_zero _
    rw [hsame]
    cases r
    case send => exact absurd ⟨_, _, _, rfl⟩ hr
    all_goals rfl

theorem not_mem_printObject (fs : List (String × Json.Scalar)) :
    '\n' ∉ Json.printObject orgJson fs :=
  fun h => absurd (Json.le_of_mem_printObject h) (by decide)

theorem appCmd_eq (K : CommandReceiver.KotlinText) (u : Companion) (action : Text)
    (args : List (Text × Text)) (c : Circumstances) :
    u.appCmd K action args c
      = ((u.receive K (u.app.hostBroadcast action args c.toChance) c).1,
        Json.printObject orgJson
          (u.receive K (u.app.hostBroadcast action args c.toChance) c).2 ++ ['\n']) := by
  rw [Companion.appCmd, replyOf_amLines c.intent_line (not_mem_printObject _)]

theorem step_served (hK : K.Lawful) (hpub : u.Published) (unit : Text) {r : Request}
    (h : r.Valid) {c : Circumstances} (harrives : c.arrives) :
    u.step K unit (r, c) = served K u r c := by
  rw [Companion.step, Request.perform_fst, if_pos h, Request.run_arguments K h, if_pos harrives,
    appCmd_eq, receive_request hK hpub h]

theorem step_lost (K : CommandReceiver.KotlinText) (u : Companion) (unit : Text) {r : Request}
    {c : Circumstances} (h : ¬ (r.Valid ∧ c.arrives)) : u.step K unit (r, c) = u := by
  rw [Companion.step, Request.perform_fst]
  by_cases hvalid : r.Valid
  · rw [if_pos hvalid, Request.run_arguments K hvalid, if_neg fun ha => h ⟨hvalid, ha⟩]
  · rw [if_neg hvalid]

theorem commands_singleton (r : Request) (c : Circumstances) :
    commands [(r, c)] = if r.Valid ∧ c.arrives then [r.command c.newId] else [] := by
  by_cases h : r.Valid ∧ c.arrives <;> simp [commands, h]

/-- What a request does to the app. -/
theorem state_step (hK : K.Lawful) (hpub : u.Published) (unit : Text) (t : Turn) :
    (u.step K unit t).toAppState
      = { u.toAppState with performed := u.performed ++ commands [t] } := by
  obtain ⟨r, c⟩ := t
  rw [commands_singleton]
  by_cases h : r.Valid ∧ c.arrives
  · rw [if_pos h, step_served hK hpub unit h.1 h.2]
    rfl
  · rw [if_neg h, step_lost K u unit h, List.append_nil]

theorem published_step (hK : K.Lawful) (hpub : u.Published) (unit : Text) (t : Turn) :
    (u.step K unit t).Published := by
  have hread : ∀ s : AppState, s.token = u.token → s.tokenFile = u.tokenFile →
      s.token ≠ [] ∧ (s.tokenFile.getD []).filter CommandReceiver.isKept = s.token := by
    intro s htoken hfile
    rw [htoken, hfile]
    exact hpub
  refine hread _ ?_ ?_ <;> rw [state_step hK hpub unit t]

/-! ## What the sender is asked -/

/-- How a send ends: its record is appended, and the radio has the message or nothing new. -/
theorem send_outbox (K : KotlinChars) (s : Sender) (request : Keepalive.SendRequest)
    (env : SendEnvironment) (now : ℤ) :
    (∃ ts id target source n reason, (s.send K request env now).outbox
          = s.outbox ++ [.rejected ts id target source n reason]
        ∧ (s.send K request env now).rejected = s.rejected + 1
        ∧ (s.send K request env now).accepted = s.accepted)
      ∨ ∃ p : Pending, (s.send K request env now).outbox = s.outbox ++ [.queued p now]
        ∧ (s.send K request env now).rejected = s.rejected
        ∧ (s.send K request env now).accepted = s.accepted ++ [p]
        ∧ Numbers.sanitise K (some request.target) = some p.target
        ∧ p.bodyChars = utf16Length request.body ∧ p.subId = env.subId request.subId
        ∧ p.id = request.id ∧ p.queuedMs = now := by
  have hreject : ∀ (s' : Sender) (reason : String), s'.outbox = s.outbox →
      s'.rejected = s.rejected → s'.accepted = s.accepted →
      ∃ ts id target source n reason', (s'.reject K request reason now).outbox
            = s.outbox ++ [.rejected ts id target source n reason']
        ∧ (s'.reject K request reason now).rejected = s.rejected + 1
        ∧ (s'.reject K request reason now).accepted = s.accepted := by
    intro s' reason houtbox hrejected haccepted
    exact ⟨_, _, _, _, _, _, congrArg (· ++ _) houtbox, congrArg (· + 1) hrejected, haccepted⟩
  unfold Sender.send
  split
  · exact .inl (hreject s _ rfl rfl rfl)
  · iterate 5
      split
      · exact .inl (hreject s _ rfl rfl rfl)
    split
    · exact .inl (hreject s _ rfl rfl rfl)
    · exact .inl (hreject s _ rfl rfl rfl)
    · split
      · exact .inl (hreject s _ rfl rfl rfl)
      · rename_i target htarget _ _ _ _ _ _ parts _ _
        obtain ⟨requestCode, intents, heq, -⟩ :=
          Sender.resultIntents_spec request.id (parts + 1) 0 s
        unfold Sender.submit
        simp only [heq]
        cases env.failure with
        | some name => exact .inl (hreject _ _ rfl rfl rfl)
        | none => exact .inr ⟨_, rfl, rfl, rfl, htarget, rfl, rfl, rfl, rfl⟩

theorem recorded_sentTo (K : CommandReceiver.KotlinText) (u : Companion) (destination body : Text)
    (sim : Option ℤ) (c : Circumstances) :
    ∃ records, Recorded [(Request.send destination body sim).command c.newId] u
      (served K u (.send destination body sim) c) records := by
  rcases send_outbox K.toKotlinChars
      { u.sender with ids := u.sender.ids ++ [String.ofList c.newId] }
      ⟨String.ofList destination, String.ofList body, Request.subOf sim, "host",
        String.ofList c.newId⟩ c.env c.now
    with ⟨ts, id, target, source, n, reason, houtbox, hrejected, -⟩
      | ⟨p, houtbox, hrejected, -⟩
  · exact ⟨[.rejected ts id target source n reason], houtbox, rfl, hrejected⟩
  · exact ⟨[.queued p c.now], houtbox, rfl, hrejected.trans (Int32.add_zero _).symm⟩

theorem recorded_step (hK : K.Lawful) (hpub : u.Published) (unit : Text) (t : Turn) :
    ∃ records, Recorded (commands [t]) u (u.step K unit t) records := by
  obtain ⟨r, c⟩ := t
  rw [commands_singleton]
  by_cases h : r.Valid ∧ c.arrives
  · rw [if_pos h, step_served hK hpub unit h.1 h.2]
    cases r with
    | send destination body sim => exact recorded_sentTo K u destination body sim c
    | answer | reject | dial | endCall | dtmf =>
      exact ⟨[], (List.append_nil _).symm, rfl, (Int32.add_zero _).symm⟩
  · rw [if_neg h, step_lost K u unit h]
    exact ⟨[], (List.append_nil _).symm, rfl, (Int32.add_zero _).symm⟩

theorem Recorded.append {cs cs' : List Command} {u' u'' : Companion}
    {records records' : List OutboxRecord} (h : Recorded cs u u' records)
    (h' : Recorded cs' u' u'' records') : Recorded (cs ++ cs') u u'' (records ++ records') where
  outbox := by rw [h'.outbox, h.outbox, List.append_assoc]
  sends := by rw [List.length_append, List.countP_append, h.sends, h'.sends]
  rejected := by
    rw [h'.rejected, h.rejected, List.countP_append, Int32.ofNat_add, Int32.add_assoc]

/-- Over any run of requests the app is asked for what the valid ones that arrive at the unit say,
once each and in order, whatever characters are in them; nothing else about it changes but that the
sends turned away are counted. -/
theorem requests_carried_out (K : CommandReceiver.KotlinText) (hK : K.Lawful) (unit : Text)
    {u : Companion} (hpub : u.Published) (ts : List Turn) :
    (Run.final (Companion.step K unit) u ts).toAppState
        = { u.toAppState with performed := u.performed ++ commands ts }
      ∧ ∃ records, Recorded (commands ts) u (Run.final (Companion.step K unit) u ts) records := by
  induction ts generalizing u with
  | nil =>
    exact ⟨by simp [commands], [], (List.append_nil _).symm, rfl, (Int32.add_zero _).symm⟩
  | cons t ts ih =>
    have hstep := state_step hK hpub unit t
    obtain ⟨records, hrecords⟩ := recorded_step hK hpub unit t
    obtain ⟨hfinal, records', hrecords'⟩ := ih (published_step hK hpub unit t)
    have hcommands : commands (t :: ts) = commands [t] ++ commands ts := by
      rw [← List.singleton_append, commands, List.filter_append, List.map_append]
      rfl
    rw [Run.final_cons, hcommands]
    refine ⟨?_, records ++ records', hrecords.append hrecords'⟩
    rw [hfinal, ← List.append_assoc, hstep]

def paired : Companion where
  toAppState := { App.fresh.toAppState with token := ['a'], tokenFile := some ['a', '\n'] }
  sender := .start

theorem paired_published : paired.Published := ⟨by decide, by decide⟩

def oneSim : SendEnvironment where
  granted := true
  hasActiveSim := true
  isKnown := true
  configSubId := -1
  defaultSubId := 1
  hasManager := true
  parts := some 1
  failure := none

def reachedAndAnswered : Circumstances where
  toChance := CommandReceiver.zeros
  env := oneSim
  now := 0
  answer _ := []
  output := []
  intent := []
  intent_line := List.not_mem_nil
  resultCode := 0
  resolved := true
  reached := true
  answered := true

/-- A message that would be more than one word to a shell that read it as it is. -/
def shellText : Text := "it's $(id)\n\"'; reboot".toList

def sendShellText : Turn := (.send "112".toList shellText none, reachedAndAnswered)

theorem shellText_carried : commands [sendShellText] = [.send "112".toList shellText (-1) []]
    ∧ (Run.final (Companion.step CommandReceiver.asciiKotlin []) paired [sendShellText]).toAppState
      = { paired.toAppState with performed := paired.performed ++ commands [sendShellText] }
    ∧ ∃ records, Recorded (commands [sendShellText]) paired
      (Run.final (Companion.step CommandReceiver.asciiKotlin []) paired [sendShellText]) records :=
  ⟨by decide, requests_carried_out CommandReceiver.asciiKotlin CommandReceiver.asciiKotlin_lawful []
    paired_published [sendShellText]⟩

/-! ## What the radio is handed -/

/-- The reply is the record that was appended last. -/
theorem sendRecord_eq {s : Sender} {before : List OutboxRecord} {record : OutboxRecord}
    (h : s.outbox = before ++ [record]) : sendRecord s = record.fields := by
  rw [sendRecord, h, List.getLast?_concat]
  rfl

theorem nodup_rejected (ts : ℤ) (id target source : String) (n : ℤ) (reason : String) :
    ((OutboxRecord.rejected ts id target source n reason).fields.map Prod.fst).Nodup :=
  (by decide : ["ts", "id", "to", "source", "body_chars", "status", "error"].Nodup)

theorem nodup_queued (p : Pending) (ts : ℤ) :
    ((OutboxRecord.queued p ts).fields.map Prod.fst).Nodup :=
  (by decide : ["id", "to", "source", "sub_id", "parts_total", "parts_ok", "parts_failed",
    "body_chars", "queued_ms", "errors", "ts", "status"].Nodup)

theorem readSend_rejected (unit : Text) (sim : Option ℤ) (ts : ℤ) (id target source : String)
    (n : ℤ) (reason : String) :
    ∃ e, readSend unit sim (Json.printObject orgJson
      (OutboxRecord.rejected ts id target source n reason).fields ++ ['\n']) = .error e := by
  have herror : Json.lookup (key "error")
      (Json.members (OutboxRecord.rejected ts id target source n reason).fields)
        = some (.str (Json.codes reason.toList)) := by
    rw [key, Json.lookup_members]
    rfl
  rw [readSend, Json.loads_printObject_line (nodup_rejected ..)]
  simp only [herror, Option.isSome_some, or_true, if_true]
  split_ifs <;> exact ⟨_, rfl⟩

theorem readSend_queued (unit : Text) (sim : Option ℤ) (p : Pending) :
    readSend unit sim (Json.printObject orgJson (OutboxRecord.queued p p.queuedMs).fields
      ++ ['\n']) = .ok (answerOf p) := by
  have herror : Json.lookup (key "error")
      (Json.members (OutboxRecord.queued p p.queuedMs).fields) = none := by
    rw [key, Json.lookup_members]
    rfl
  have hstatus : Json.lookup (key "status")
      (Json.members (OutboxRecord.queued p p.queuedMs).fields)
        = some (.str (key "queued")) := by
    rw [key, Json.lookup_members]
    rfl
  have hne : key "queued" ≠ key "rejected" := by decide
  rw [readSend, Json.loads_printObject_line (nodup_queued ..)]
  simp [reads, isStr, herror, hstatus, hne, answerOf]

section Send

variable {destination body : Text} {sim : Option ℤ}

/-- A send that reaches the unit. -/
theorem perform_send (hK : K.Lawful) (hpub : u.Published) (unit : Text)
    (h : (Request.send destination body sim).Valid) {c : Circumstances} (harrives : c.arrives) :
    (Request.send destination body sim).perform K unit u c
      = (served K u (.send destination body sim) c,
        if c.answered then
          readSend unit sim (Json.printObject orgJson
            (sendRecord (sentTo K u destination body sim c)) ++ ['\n'])
        else .error (.device (detail unit "could not be reached or could not send"))) := by
  obtain ⟨hbody, hto, hbad, -⟩ := id h
  have hrun := Request.run_arguments K h u c
  rw [if_pos harrives, appCmd_eq, receive_request hK hpub h c] at hrun
  rw [Request.perform, sendSms, if_neg hbody, if_neg (by simp [hto]), if_neg hbad]
  rw [Request.arguments] at hrun
  rw [hrun]
  by_cases hanswered : c.answered <;> simp [hanswered, answerTo]

/-- A send that does not reach the unit is an error and leaves it as it was. -/
theorem perform_unsent (K : CommandReceiver.KotlinText) (unit : Text) (u : Companion)
    {c : Circumstances} (h : ¬ ((Request.send destination body sim).Valid ∧ c.arrives)) :
    ∃ e, (Request.send destination body sim).perform K unit u c = (u, .error e) := by
  rw [Request.perform, sendSms]
  by_cases hbody : body = []
  · rw [if_pos hbody]
    exact ⟨_, rfl⟩
  by_cases hto : isDestination destination = false
  · rw [if_neg hbody, if_pos hto]
    exact ⟨_, rfl⟩
  by_cases hbad : BadSim sim
  · rw [if_neg hbody, if_neg hto, if_pos hbad]
    exact ⟨_, rfl⟩
  rw [if_neg hbody, if_neg hto, if_neg hbad]
  by_cases hnul : Char.ofNat 0 ∈ body
  · have hmem : body ∈ action (Request.send destination body sim).arguments := by
      simp [action, Request.arguments]
    have hrun := runResolved_nul (Companion.runAsRoot K c) c.resolved u hmem hnul
    rw [Request.arguments] at hrun
    rw [hrun]
    by_cases hresolved : c.resolved
    · rw [if_pos hresolved]
      exact ⟨_, rfl⟩
    · rw [if_neg hresolved]
      exact ⟨_, rfl⟩
  · have hvalid : (Request.send destination body sim).Valid :=
      ⟨hbody, by simpa using hto, hbad, hnul⟩
    have hrun := Request.run_arguments K hvalid u c
    rw [if_neg fun hr => h ⟨hvalid, hr⟩, Request.arguments] at hrun
    rw [hrun]
    exact ⟨_, rfl⟩

/-- What one turn adds to what the radio accepted, and to what the gateway says it did. -/
theorem sendAnswer_spec (hK : K.Lawful) (hpub : u.Published) (unit : Text) (t : Turn) :
    ∃ sent, Accounts K [t] u (u.step K unit t) sent
      ∧ (u.sendAnswer K unit t).Sublist (sent.map fun x => answerOf x.2)
      ∧ (t.2.answered → u.sendAnswer K unit t = sent.map fun x => answerOf x.2) := by
  obtain ⟨r, c⟩ := t
  have hother : (∀ destination body sim, r ≠ .send destination body sim) →
      (u.step K unit (r, c)).sender = u.sender ∧ u.sendAnswer K unit (r, c) = [] := by
    intro hr
    refine ⟨?_, by cases r <;> first | rfl | exact absurd rfl (hr _ _ _)⟩
    by_cases h : r.Valid ∧ c.arrives
    · rw [step_served hK hpub unit h.1 h.2]
      cases r <;> first | rfl | exact absurd rfl (hr _ _ _)
    · rw [step_lost K u unit h]
  have hnone : (u.step K unit (r, c)).sender.accepted = u.sender.accepted →
      Accounts K [(r, c)] u (u.step K unit (r, c)) [] := fun h =>
    ⟨List.nil_sublist _, List.forall_mem_nil _, h.trans (List.append_nil _).symm⟩
  by_cases hr : ∃ destination body sim, r = .send destination body sim
  · obtain ⟨destination, body, sim, rfl⟩ := hr
    by_cases h : (Request.send destination body sim).Valid ∧ c.arrives
    · have hperform := perform_send hK hpub unit h.1 h.2
      have hanswer : u.sendAnswer K unit (.send destination body sim, c)
          = match ((Request.send destination body sim).perform K unit u c).2 with
            | .ok answer => [answer]
            | .error _ => [] := by
        rw [Companion.sendAnswer]
        cases ((Request.send destination body sim).perform K unit u c).2 <;> rfl
      have hstep : (u.step K unit (.send destination body sim, c)).sender
          = sentTo K u destination body sim c := by
        rw [Companion.step, hperform]
        rfl
      rw [hanswer, hperform]
      rcases send_outbox K.toKotlinChars
          { u.sender with ids := u.sender.ids ++ [String.ofList c.newId] }
          ⟨String.ofList destination, String.ofList body, Request.subOf sim, "host",
            String.ofList c.newId⟩ c.env c.now
        with ⟨ts, id, target, source, n, reason, houtbox, -, haccepted⟩
          | ⟨p, houtbox, -, haccepted, htarget, hchars, hsub, hid, hnow⟩
      · -- the record is a rejection
        obtain ⟨e, he⟩ := readSend_rejected unit sim ts id target source n reason
        have hrecord : sendRecord (sentTo K u destination body sim c)
            = (OutboxRecord.rejected ts id target source n reason).fields :=
          sendRecord_eq houtbox
        refine ⟨[], hnone (by rw [hstep]; exact haccepted), ?_, fun _ => ?_⟩ <;>
          by_cases ha : c.answered <;> simp [ha, hrecord, he]
      · have hrecord : sendRecord (sentTo K u destination body sim c)
            = (OutboxRecord.queued p p.queuedMs).fields := by
          rw [hnow]
          exact sendRecord_eq houtbox
        have hread := readSend_queued unit sim p
        refine ⟨[((.send destination body sim, c), p)], ⟨List.Sublist.refl _, ?_, ?_⟩, ?_,
          fun ha => ?_⟩
        · rw [List.forall_mem_singleton]
          exact ⟨htarget, hchars, hsub, hid, hnow⟩
        · rw [hstep]
          exact haccepted
        · by_cases ha : c.answered <;> simp [ha, hrecord, hread]
        · have ha : c.answered = true := ha
          simp [ha, hrecord, hread]
    · obtain ⟨e, he⟩ := perform_unsent K unit u h
      have hstep : u.step K unit (.send destination body sim, c) = u := by
        rw [Companion.step, he]
      have hanswer : u.sendAnswer K unit (.send destination body sim, c) = [] := by
        rw [Companion.sendAnswer, he]
      exact ⟨[], hnone (by rw [hstep]), by rw [hanswer]; exact List.nil_sublist _,
        fun _ => hanswer⟩
  · obtain ⟨hsender, hanswer⟩ := hother fun d b s h => hr ⟨d, b, s, h⟩
    exact ⟨[], hnone (by rw [hsender]), by rw [hanswer]; exact List.nil_sublist _,
      fun _ => hanswer⟩

theorem Accounts.append {ts ts' : List Turn} {u' u'' : Companion}
    {sent sent' : List (Turn × Pending)} (h : Accounts K ts u u' sent)
    (h' : Accounts K ts' u' u'' sent') :
    Accounts K (ts ++ ts') u u'' (sent ++ sent') where
  turns := by
    rw [List.map_append]
    exact h.turns.append h'.turns
  carries x hx := (List.mem_append.1 hx).elim (h.carries x) (h'.carries x)
  accepted := by rw [h'.accepted, h.accepted, List.map_append, List.append_assoc]

/-- Over any run of requests, every send the gateway says was accepted is a message the radio was
handed, the one that was asked for, in order and with the record the app wrote; and where no reply
is lost the radio was handed no other. -/
theorem accepted_answered (K : CommandReceiver.KotlinText) (hK : K.Lawful) (unit : Text)
    {u : Companion} (hpub : u.Published) (ts : List Turn) :
    ∃ sent, Accounts K ts u (Run.final (Companion.step K unit) u ts) sent
      ∧ (sendAnswers K unit u ts).Sublist (sent.map fun x => answerOf x.2)
      ∧ ((∀ t ∈ ts, t.2.answered) →
        sendAnswers K unit u ts = sent.map fun x => answerOf x.2) := by
  induction ts generalizing u with
  | nil =>
    exact ⟨[], ⟨List.Sublist.refl _, List.forall_mem_nil _, (List.append_nil _).symm⟩,
      List.Sublist.refl _, fun _ => rfl⟩
  | cons t ts ih =>
    have hpub' := published_step hK hpub unit t
    obtain ⟨sent, haccounts, hsub, hall⟩ := sendAnswer_spec hK hpub unit t
    obtain ⟨rest, hrest, hsubs, halls⟩ := ih hpub'
    refine ⟨sent ++ rest, haccounts.append hrest, ?_, fun h => ?_⟩
    · rw [List.map_append]
      exact hsub.append hsubs
    · rw [List.map_append, sendAnswers, hall (h t List.mem_cons_self),
        halls fun t' ht' => h t' (List.mem_cons_of_mem _ ht')]

theorem shellText_answered :
    ∃ sent, Accounts CommandReceiver.asciiKotlin [sendShellText] paired
        (Run.final (Companion.step CommandReceiver.asciiKotlin []) paired [sendShellText]) sent
      ∧ (sendAnswers CommandReceiver.asciiKotlin [] paired [sendShellText]).Sublist
        (sent.map fun x => answerOf x.2)
      ∧ ((∀ t ∈ [sendShellText], t.2.answered) →
        sendAnswers CommandReceiver.asciiKotlin [] paired [sendShellText]
          = sent.map fun x => answerOf x.2) :=
  accepted_answered CommandReceiver.asciiKotlin CommandReceiver.asciiKotlin_lawful []
    paired_published [sendShellText]

end Send

end DeviceCli

end Rackphone
