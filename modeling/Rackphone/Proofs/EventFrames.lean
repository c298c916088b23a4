import Rackphone.EventFrames

/-!
# What the client reads off the event stream

Each frame is a line that starts with `data:` and an empty line, and leaves every stage of the
client's reader where it found it; the object on the line reads back as it was written, since its
keys are distinct and its integers have 64 bits. How the body is cut does not matter to a reader
that takes one byte at a time.
-/

namespace Rackphone

open Json (Atom Value)
open Transducer

def FitsAtom : Atom → Prop
  | .scalar (.num n) => Has64Bits n
  | _ => True

theorem fits_textAtom (s : Option String) : FitsAtom (textAtom s) := by
  cases s <;> trivial

theorem fits_numAtom {n : Option ℤ} (h : ∀ m ∈ n, Has64Bits m) : FitsAtom (numAtom n) := by
  cases n with
  | none => trivial
  | some n => exact h n rfl

theorem dartValue_toValue {a : Atom} (h : FitsAtom a) : dartValue a.toValue = some a.toValue := by
  rcases a with (_ | n | s) | b
  · rfl
  · simp only [Atom.toValue, Json.Scalar.toValue, dartValue, if_pos (show Has64Bits n from h)]
  · rfl
  · rfl

theorem dartFields_members : ∀ {fs : List (String × Atom)}, (∀ f ∈ fs, FitsAtom f.2) →
    dartFields (Atom.members fs) = some (Atom.members fs)
  | [], _ => rfl
  | f :: fs, h => by
    obtain ⟨hf, hfs⟩ := List.forall_mem_cons.1 h
    have ih := dartFields_members hfs
    simp only [Atom.members] at ih
    simp [Atom.members, dartFields, dartValue_toValue hf, ih]

theorem jsonObject_object {fs : List (String × Atom)} (hk : (fs.map Prod.fst).Nodup)
    (hf : ∀ f ∈ fs, FitsAtom f.2) :
    jsonObject (Atom.object jsonDumps fs) = some (Atom.members fs) := by
  simp [jsonObject, Atom.loads_object jsonDumps hk, dartValue, dartFields_members hf]

namespace StoredRow

theorem fits_columns (r : StoredRow) : ∀ f ∈ r.columns, FitsAtom f.2 := by
  simp only [Row.columns, List.forall_mem_cons, fits_textAtom, true_and]
  refine ⟨r.id_fits, trivial, trivial, r.sourceId_fits, fits_numAtom r.timestamp_fits,
    fits_numAtom r.duration_fits, trivial, r.receivedAt_fits, ?_⟩
  exact fun f hf => absurd hf List.not_mem_nil

end StoredRow

namespace Given

variable (g : Given)

theorem nodup_fields : (g.fields.map Prod.fst).Nodup := by
  have hkeys : g.fields.map Prod.fst = ["id", "unit", "kind", "source_id", "address", "body", "ts",
      "direction", "duration", "raw_json", "received_at", "notify", "filter"] := by
    unfold fields
    cases g.filters <;> rfl
  rw [hkeys]
  decide

theorem fits_fields : ∀ f ∈ g.fields, FitsAtom f.2 := by
  unfold fields withNotifyDecision
  cases g.filters with
  | none =>
    refine List.forall_mem_append.2 ⟨g.row.fits_columns, ?_⟩
    simp [FitsAtom]
  | some filters =>
    refine List.forall_mem_append.2 ⟨g.row.fits_columns, ?_⟩
    simp only [List.forall_mem_cons, fits_textAtom, true_and]
    exact ⟨trivial, fun f hf => absurd hf List.not_mem_nil⟩

/-- The line of a frame. -/
def line : List Char := "data: ".toList ++ Atom.object jsonDumps g.fields

theorem frame_eq : g.frame = some (g.line ++ ['\n', '\n']) := by
  rw [frame, object, Atom.dumps_members]
  rfl

theorem line_plain : ∀ c ∈ g.line, c ≠ '\n' ∧ c ≠ '\r' := by
  intro c hc
  have hle : 0x20 ≤ c.toNat := by
    rcases List.mem_append.1 hc with h | h
    · have : ∀ d ∈ "data: ".toList, 0x20 ≤ d.toNat := by simp
      exact this c h
    · exact Atom.le_of_mem_object jsonDumps h
  constructor <;> rintro rfl <;> exact absurd hle (by decide)

theorem step_line : EventReader.start.step g.line
    = (⟨[Atom.object jsonDumps g.fields], false⟩, []) := by
  rfl

theorem step_empty : EventReader.step ⟨[Atom.object jsonDumps g.fields], false⟩ []
    = (EventReader.start, [g.object]) := by
  simp [EventReader.step, EventReader.flush, List.intercalate,
    jsonObject_object g.nodup_fields g.fits_fields, object]

theorem run_frame : run (comp LineSplitter.step EventReader.step)
    (LineSplitter.start, EventReader.start) (g.line ++ ['\n', '\n'])
      = ((LineSplitter.start, EventReader.start), [g.object]) := by
  have hsplit : run LineSplitter.step LineSplitter.start (g.line ++ ['\n'] ++ ['\n'])
      = (LineSplitter.start, [g.line] ++ [[]]) :=
    run_append_of_eq (LineSplitter.run_line g.line_plain) rfl
  rw [List.append_assoc] at hsplit
  refine run_comp_of_eq hsplit ?_
  rw [List.singleton_append, run_cons, step_line, run_cons, step_empty]
  rfl

end Given

theorem mapM_frame : ∀ gs : List Given,
    gs.mapM Given.frame = some (gs.map fun g => g.line ++ ['\n', '\n'])
  | [] => rfl
  | g :: gs => by
    rw [List.mapM_cons, g.frame_eq, mapM_frame gs]
    rfl

theorem eventBody_eq (gs : List Given) :
    eventBody gs = some (Utf8.encode (gs.flatMap fun g => g.line ++ ['\n', '\n'])) := by
  rw [eventBody, mapM_frame, List.flatMap_def]
  rfl

theorem run_dropMark_frames (gs : List Given) :
    ∃ first, run Utf8.dropMark true (gs.flatMap fun g => g.line ++ ['\n', '\n'])
      = (first, gs.flatMap fun g => g.line ++ ['\n', '\n']) := by
  cases gs with
  | nil => exact ⟨true, rfl⟩
  | cons g gs =>
    have hfirst : ∃ rest, (g :: gs).flatMap (fun g => g.line ++ ['\n', '\n']) = 'd' :: rest :=
      ⟨_, rfl⟩
    obtain ⟨rest, hrest⟩ := hfirst
    rw [hrest, run_cons, show Utf8.dropMark true 'd' = (false, ['d']) by decide,
      Utf8.run_dropMark_false]
    exact ⟨false, rfl⟩

/-- Wherever the body is cut, the client yields the objects that were framed, and nothing more at
its end. -/
theorem stream_frames (gs : List Given) : ∃ body, eventBody gs = some body ∧
    ∀ chunks : List (List UInt8), chunks.flatten = body →
      (pieces StreamReader.step StreamReader.start chunks).flatten = gs.map Given.object
        ∧ (run StreamReader.step StreamReader.start chunks.flatten).1.close = some [] := by
  refine ⟨_, eventBody_eq gs, fun chunks h => ?_⟩
  obtain ⟨first, hmark⟩ := run_dropMark_frames gs
  have hrun : run StreamReader.step StreamReader.start chunks.flatten
      = ((.between, first, LineSplitter.start, EventReader.start), gs.map Given.object) := by
    rw [h]
    refine run_comp_of_eq (Utf8.run_encode _) (run_comp_of_eq hmark ?_)
    rw [run_flatMap Given.run_frame, List.map_eq_flatMap]
  rw [flatten_pieces, hrun]
  exact ⟨rfl, rfl⟩

/-- A message whose text is `я` and a line end. -/
def cyrillicGiven : Given where
  row :=
    { unit := "u", kind := KIND_SMS, sourceId := 1, address := none, body := some "я\n",
      timestamp := some 7, direction := some "in", duration := none, raw := "{}", id := 1,
      receivedAt := 9
      id_fits := by decide
      sourceId_fits := by decide
      timestamp_fits := by simp [Has64Bits]
      duration_fits := by simp
      receivedAt_fits := by decide }
  filters := none

/-- Byte 87 of the body is the second one of the `я`. -/
theorem stream_frames_cut : ∃ body, eventBody [cyrillicGiven] = some body ∧
    body[87]? = some 0x8f ∧
    (pieces StreamReader.step StreamReader.start [body.take 87, body.drop 87]).flatten
      = [cyrillicGiven.object] := by
  obtain ⟨body, hbody, h⟩ := stream_frames [cyrillicGiven]
  refine ⟨body, hbody, ?_, (h [body.take 87, body.drop 87] ?_).1⟩
  · have : (eventBody [cyrillicGiven]).bind (·[87]?) = some 0x8f := by decide +kernel
    rwa [hbody] at this
  · simp

end Rackphone
