import Rackphone.Files
import Rackphone.Lib.Fallible

/-!
# What an interrupted upload leaves

A client of a device that answers gets what is under the name, up to the size limit. So the call is
judged by what it leaves there: the push has written it, and only a checksum that differs has it
removed.
-/

namespace Rackphone.Files

variable {L : Library} {d : Device} {name : Name} {content : Bytes} {a : StoreAnswers}

/-! ## Checksums -/

theorem splitOnP_of_forall {p : Char → Bool} {text rest : List Char} {c : Char}
    (htext : ∀ x ∈ text, p x = false) (hc : p c = true) :
    (text ++ c :: rest).splitOnP p = text :: rest.splitOnP p :=
  List.splitOnP_append_cons_of_forall_mem htext c hc rest

theorem remoteChecksum_sha256sum (name : Name) (b : Bytes) :
    remoteChecksum L (sha256sum L name b) = .ok (L.sha256 b) := by
  have hne : L.sha256 b ≠ [] := by
    intro hnil
    have hlength := L.length_sha256 b
    rw [hnil] at hlength
    cases hlength
  have hfields : ∃ more, fields L (sha256sum L name b) = L.sha256 b :: more := by
    unfold fields sha256sum
    rw [splitOnP_of_forall (L.isSpace_sha256 b) L.isSpace_blank,
      List.filter_cons_of_pos (by simpa using hne)]
    exact ⟨_, rfl⟩
  obtain ⟨more, hmore⟩ := hfields
  rw [remoteChecksum, hmore]
  simp only [L.length_sha256, L.casefold_sha256, ne_eq, not_true_eq_false, ↓reduceIte]

/-! ## What a client gets -/

theorem statOf_of_mem {n : Name} (h : n ∈ d.keys) : ∃ size, statOf d n = .ok size := by
  unfold statOf
  cases hget : d.get n with
  | none => exact absurd h (Dict.get_eq_none.1 hget)
  | some b => exact ⟨b.length, rfl⟩

theorem listFiles_listOf (L : Library) (d : Device) :
    ∃ rows, listFiles L (listOf d) = .ok rows
      ∧ ∀ n, n ∈ rows.map Prod.fst ↔ n ∈ d.keys ∧ isRefused n = false := by
  set names := d.keys.filter fun n => isRefused n = false with hnames
  have hmem : ∀ n, n ∈ names ↔ n ∈ d.keys ∧ isRefused n = false := by
    intro n
    rw [hnames, List.mem_filter, decide_eq_true_eq]
  have hrows : ∀ ns : List Name, (∀ n ∈ ns, n ∈ d.keys) →
      ∃ rows : List (Name × ℤ), rows.map Prod.fst = ns
        ∧ (ns.mapM fun n => (statOf d n).map fun size => (n, size)) = .ok rows := by
    intro ns hns
    induction ns with
    | nil => exact ⟨[], rfl, rfl⟩
    | cons n ns ih =>
      obtain ⟨hn, hns⟩ := List.forall_mem_cons.1 hns
      obtain ⟨size, hsize⟩ := statOf_of_mem hn
      obtain ⟨rows, hmap, hok⟩ := ih hns
      refine ⟨(n, size) :: rows, by rw [List.map_cons, hmap], ?_⟩
      rw [List.mapM_cons, hsize, hok]
      rfl
  obtain ⟨rows, hmap, hok⟩ := hrows names fun n hn => ((hmem n).1 hn).1
  refine ⟨rows.mergeSort fun a b => a.1 ≤ b.1, ?_, fun n => ?_⟩
  · have hlist : (do
        (listOf d).serial
        let names ← (listOf d).find
        (names.filter fun n => isRefused n = false).mapM fun n =>
          ((listOf d).size n).map fun size => (n, size)) = Except.ok rows := hok
    unfold listFiles
    rw [hlist]
  · rw [← hmem, ← hmap]
    exact ((List.mergeSort_perm _ _).map Prod.fst).mem_iff

/-- What a fetch of a listed file does, by what may be fetched of it. -/
def fetched : Option Bytes → Except FilesError Unit × Option Bytes
  | some b => (.ok (), some b)
  | none => (.error .size, none)

theorem fetched_injective : Function.Injective fetched := by
  rintro (_ | b) (_ | b') h
  · rfl
  · cases h
  · cases h
  · cases h
    rfl

theorem fetch_fetchOf (hname : isRefused name = false) {b : Bytes} (hget : d.get name = some b) :
    fetch L name none (fetchOf L d name) = fetched (fetchable b) := by
  unfold fetch fetchOf statOf fetchable
  simp only [hname, hget, Bool.false_eq_true, ↓reduceIte, Nat.cast_lt]
  by_cases hsize : b.length ≤ MAX_FILE_SIZE
  · have hsum : (Except.ok (sha256sum L name b) : Answer (List Char)).bind (remoteChecksum L)
        = .ok (L.sha256 b) := remoteChecksum_sha256sum name b
    rw [if_neg (not_lt.2 hsize), hsum]
    simp [hsize, not_lt.2 hsize, fetched]
  · rw [if_pos (not_le.1 hsize), if_neg hsize]
    rfl

theorem clientGets_eq (hname : isRefused name = false) (d : Device) :
    clientGets L d name = ((d.get name).map fetchable).map fetched := by
  obtain ⟨rows, hrows, hmem⟩ := listFiles_listOf L d
  unfold clientGets
  rw [hrows]
  dsimp only
  cases hget : d.get name with
  | none =>
    have hkeys : name ∉ d.keys := Dict.get_eq_none.1 hget
    rw [if_neg fun h => hkeys ((hmem name).1 (List.mem_map.2 h)).1]
    rfl
  | some b =>
    have hkeys : name ∈ d.keys := List.mem_map_of_mem (Dict.get_eq_some.1 hget)
    rw [if_pos (List.mem_map.1 ((hmem name).2 ⟨hkeys, hname⟩)), fetch_fetchOf hname hget]
    rfl

/-- The upload is judged by what it leaves under the name. -/
theorem leavesNoWrongFile_iff (hname : isRefused name = false) :
    LeavesNoWrongFile L d name content a ↔
      ((store L d name content a).2.get name).map fetchable = some (some content)
        ∨ ((store L d name content a).2.get name).map fetchable = (d.get name).map fetchable := by
  have hwhole : some ((Except.ok (), some content) : Except FilesError Unit × Option Bytes)
      = (some (some content)).map fetched := rfl
  unfold LeavesNoWrongFile
  rw [clientGets_eq hname, clientGets_eq hname, hwhole,
    (Option.map_injective fetched_injective).eq_iff,
    (Option.map_injective fetched_injective).eq_iff]

/-! ## What a push leaves -/

theorem fetchable_of_le {b : Bytes} (h : b.length ≤ MAX_FILE_SIZE) : fetchable b = some b :=
  if_pos h

theorem fetchable_eq_some {b : Bytes} : fetchable b = some content → b = content := by
  unfold fetchable
  split_ifs
  · exact Option.some.inj
  · exact fun h => nomatch h

/-- What a push that goes through leaves, checked and where it differs removed. -/
theorem get_pushAndVerify_done {arrived : Bytes} (hpush : a.push = .done arrived) :
    (pushAndVerify L d name content a).2.get name
      = if a.sha256sum ∧ L.sha256 arrived ≠ L.sha256 content ∧ a.rm then none
        else some arrived := by
  unfold pushAndVerify
  simp only [hpush, remoteChecksum_sha256sum]
  cases a.sha256sum with
  | false => simp
  | true =>
    by_cases hsum : L.sha256 arrived = L.sha256 content
    · simp [hsum]
    · cases a.rm <;> simp [hsum]

theorem harmlessPush_iff (hsize : content.length ≤ MAX_FILE_SIZE) :
    (((pushAndVerify L d name content a).2.get name).map fetchable = some (some content)
        ∨ ((pushAndVerify L d name content a).2.get name).map fetchable
          = (d.get name).map fetchable) ↔ HarmlessPush L d name content a := by
  unfold HarmlessPush
  cases hpush : a.push with
  | done arrived =>
    rw [get_pushAndVerify_done hpush]
    dsimp only
    split_ifs with hremoved
    · have hne : arrived ≠ content := fun h => hremoved.2.1 (by rw [h])
      have hnone : none = (d.get name).map fetchable ↔ d.get name = none := by
        rw [eq_comm, Option.map_eq_none_iff]
      simp [hne, hnone]
    · have hwhole : fetchable arrived = some content ↔ arrived = content :=
        ⟨fetchable_eq_some, fun h => by rw [h, fetchable_of_le hsize]⟩
      rw [Option.map_some, Option.some.injEq, hwhole, eq_comm (b := (d.get name).map fetchable)]
  | failed written =>
    cases written with
    | none => simp [pushAndVerify, hpush]
    | some n =>
      have hprefix : fetchable (content.take n) = some (content.take n) :=
        fetchable_of_le ((List.length_take_le' n content).trans hsize)
      have hwhole : content.take n = content ↔ content.length ≤ n := List.take_eq_self_iff content
      simp only [pushAndVerify, hpush, Dict.get_set, ↓reduceIte, Option.map_some, hprefix,
        Option.some.injEq, hwhole]
      rw [eq_comm (b := (d.get name).map fetchable)]

/-- An upload leaves no wrong file exactly where it does not come to the push or the push does no
harm. -/
theorem store_leavesNoWrongFile_iff :
    LeavesNoWrongFile L d name content a
      ↔ (Pushes name content a → HarmlessPush L d name content a) := by
  by_cases hpushes : Pushes name content a
  · obtain ⟨hname, hsize, hserial, hmkdir⟩ := hpushes
    have hstore : store L d name content a = pushAndVerify L d name content a := by
      unfold store
      rw [if_neg (by simp [hname]), if_neg (not_lt.2 hsize), if_neg (by simp [hserial, hmkdir])]
    rw [leavesNoWrongFile_iff hname, hstore, harmlessPush_iff hsize]
    exact ⟨fun h _ => h, fun h => h ⟨hname, hsize, hserial, hmkdir⟩⟩
  · have hsame : (store L d name content a).2 = d := by
      unfold store
      split_ifs with hname hsize hreached
      · rfl
      · rfl
      · rfl
      · exact absurd ⟨by simpa using hname, not_lt.1 hsize, by simpa using hreached⟩ hpushes
    refine ⟨fun _ h => absurd h hpushes, fun _ => .inr ?_⟩
    rw [hsame]

/-! ## Fetching -/

/-- A fetch that returns has written the bytes of the digest the device reported. -/
theorem fetch_returns {destination : Option Bytes} {f : FetchAnswers}
    (h : (fetch L name destination f).1 = .ok ()) :
    ∃ output b, f.sha256sum = .ok output ∧ remoteChecksum L output = .ok (L.sha256 b)
      ∧ (fetch L name destination f).2 = some b := by
  unfold fetch at h ⊢
  split_ifs at h ⊢ with hname
  cases hserial : f.serial with
  | error message => simp [hserial] at h
  | ok u =>
    cases hsize : f.size with
    | error message => simp [hserial, hsize] at h
    | ok size =>
      simp only [hserial, hsize] at h ⊢
      split_ifs at h ⊢ with hlimit
      cases hsum : f.sha256sum.bind (remoteChecksum L) with
      | error message => simp [hsum] at h
      | ok checksum =>
        rw [hsum] at h
        cases hraised : f.pull.raised with
        | some message => simp [hraised] at h
        | none =>
          cases hwritten : f.pull.written with
          | none => simp [hraised, hwritten] at h
          | some b =>
            simp only [hraised, hwritten] at h ⊢
            split_ifs at h ⊢ with hbig hdiffers
            obtain ⟨output, houtput, hchecksum⟩ := Fallible.bind_eq_ok.1 hsum
            rw [ne_eq, not_not] at hdiffers
            exact ⟨output, b, houtput, by rw [hchecksum, hdiffers], rfl⟩

theorem uploads_and_fetches (L : Library) :
    (∀ d name content a, LeavesNoWrongFile L d name content a
        ↔ (Pushes name content a → HarmlessPush L d name content a))
      ∧ ∀ name destination f, (fetch L name destination f).1 = .ok () →
        ∃ output b, f.sha256sum = .ok output ∧ remoteChecksum L output = .ok (L.sha256 b)
          ∧ (fetch L name destination f).2 = some b :=
  ⟨fun _ _ _ _ => store_leavesNoWrongFile_iff, fun _ _ _ h => fetch_returns h⟩

/-! ## An upload that fails after two bytes -/

def twoBytesHex : List Char :=
  "9513229d435978263d82902c59d4e0fb86c941a9bf09b605cd8a6643f40149a8".toList

/-- The digest of the two bytes; of anything else it does not matter. -/
def digestOfTwo (b : Bytes) : List Char :=
  if b = [112, 97] then twoBytesHex else List.replicate SHA256_HEX_LENGTH '0'

theorem length_digestOfTwo (b : Bytes) : (digestOfTwo b).length = SHA256_HEX_LENGTH := by
  unfold digestOfTwo
  split_ifs <;> rfl

theorem isSpace_digestOfTwo (b : Bytes) : ∀ c ∈ digestOfTwo b, c.isWhitespace = false := by
  have hhex : twoBytesHex.all (fun c => !c.isWhitespace) = true := by decide
  unfold digestOfTwo
  split_ifs
  · exact fun c hc => by simpa using List.all_eq_true.1 hhex c hc
  · intro c hc
    rw [List.eq_of_mem_replicate hc]
    rfl

def asciiLibrary : Library :=
  ⟨Char.isWhitespace, id, digestOfTwo, rfl, length_digestOfTwo, isSpace_digestOfTwo, fun _ => rfl⟩

def payloadName : Name := "payload".toList

def cutOff : StoreAnswers := ⟨true, true, .failed (some 2), true, true⟩

/-- The first two of seven bytes are fetched as the file. -/
theorem cut_off_upload_fetched :
    clientGets asciiLibrary
        (store asciiLibrary .empty payloadName [112, 97, 121, 108, 111, 97, 100] cutOff).2
        payloadName
        = some (.ok (), some [112, 97])
      ∧ ¬ LeavesNoWrongFile asciiLibrary .empty payloadName [112, 97, 121, 108, 111, 97, 100]
        cutOff := by
  constructor
  · rw [clientGets_eq (by decide)]
    rfl
  · rw [leavesNoWrongFile_iff (by decide)]
    decide +kernel

end Rackphone.Files
