import Rackphone.Lib.Dict

/-!
# Files of a unit

`store`, `fetch` and `list_files` of `gateway/files.py` with the commands they send to a device. A
command is answered or raises; what it raises is the text of the `AdbError` or the timeout. `adb
push` writes the destination as it goes.
-/

namespace Rackphone

namespace Files

abbrev Bytes := List UInt8

/-- A file name, as its characters. -/
abbrev Name := List Char

abbrev Answer := Except (List Char)

def MAX_FILE_SIZE : ℕ := 512 * 1024 * 1024

def SHA256_HEX_LENGTH : ℕ := 64

/-- What the host's library knows of text, and the hexadecimal digest of some bytes. -/
structure Library where
  isSpace : Char → Bool
  casefold : List Char → List Char
  sha256 : Bytes → List Char
  isSpace_blank : isSpace ' ' = true
  length_sha256 : ∀ b, (sha256 b).length = SHA256_HEX_LENGTH
  isSpace_sha256 : ∀ b, ∀ c ∈ sha256 b, isSpace c = false
  casefold_sha256 : ∀ b, casefold (sha256 b) = sha256 b

inductive FilesError where
  | name
  | size
  /-- A failure of the device, with what it could not do. -/
  | device (action : String)
  /-- `FileNotFoundError`. -/
  | missing
deriving DecidableEq

/-! ## What is read off names, messages and answers -/

/-- `pattern in text`. -/
def contains (pattern text : List Char) : Bool := text.tails.any fun t => pattern.isPrefixOf t

/-- The test with which `resolve` refuses a name. -/
def isRefused (name : Name) : Bool :=
  name.isEmpty || name.head? == some '.' || contains ['.', '.'] name || name.contains '/'
    || name.contains '\\' || name.contains '\x00'
    || name.any fun c => c.toNat < 32 || c.toNat == 127

variable (L : Library)

def isMissing (message : List Char) : Bool :=
  contains "no such file".toList (L.casefold message)
    || contains "cannot stat".toList (L.casefold message)

/-- `str.split()`. -/
def fields (text : List Char) : List (List Char) :=
  (text.splitOnP L.isSpace).filter fun field => field ≠ []

/-- `_remote_checksum`, given the output of the command. -/
def remoteChecksum (output : List Char) : Answer (List Char) :=
  match fields L output with
  | field :: _ =>
    if field.length ≠ SHA256_HEX_LENGTH then
      .error "device returned an invalid checksum".toList
    else .ok (L.casefold field)
  | [] => .error "device returned an invalid checksum".toList

/-! ## The device -/

/-- The files in the transfer directory. -/
abbrev Device := Dict Name Bytes

/-- What `sha256sum` prints for a file. -/
def sha256sum (name : Name) (b : Bytes) : List Char :=
  L.sha256 b ++ ' ' :: ' ' :: ("/sdcard/rackphone/".toList ++ name ++ ['\n'])

/-- How a push ends. -/
inductive Push where
  /-- `adb` reports success, and these bytes have arrived. -/
  | done (arrived : Bytes)
  /-- It fails or times out, having opened the file and written so many bytes, or before. -/
  | failed (written : Option ℕ)

/-- What happens to the commands of one `store`: whether each is answered, and how the push ends. -/
structure StoreAnswers where
  serial : Bool
  mkdir : Bool
  push : Push
  sha256sum : Bool
  rm : Bool

def couldNotStore : FilesError := .device "could not store the file"

/-- `store` from the push on. -/
def pushAndVerify (d : Device) (name : Name) (content : Bytes) (a : StoreAnswers) :
    Except FilesError Unit × Device :=
  match a.push with
  | .failed none => (.error couldNotStore, d)
  | .failed (some n) => (.error couldNotStore, d.set name (content.take n))
  | .done arrived =>
    let d := d.set name arrived
    if a.sha256sum = false then (.error couldNotStore, d)
    else
      match remoteChecksum L (sha256sum L name arrived) with
      | .error _ => (.error couldNotStore, d)
      | .ok checksum =>
        if checksum ≠ L.sha256 content then
          (.error couldNotStore, if a.rm then d.pop name else d)
        else (.ok (), d)

def store (d : Device) (name : Name) (content : Bytes) (a : StoreAnswers) :
    Except FilesError Unit × Device :=
  if isRefused name then (.error .name, d)
  else if MAX_FILE_SIZE < content.length then (.error .size, d)
  else if a.serial = false ∨ a.mkdir = false then (.error couldNotStore, d)
  else pushAndVerify L d name content a

/-! ## Fetching and listing -/

/-- What `adb pull` leaves at the destination, and what it raises. -/
structure Pull where
  written : Option Bytes
  raised : Option (List Char)

structure FetchAnswers where
  serial : Answer Unit
  size : Answer ℤ
  sha256sum : Answer (List Char)
  pull : Pull

def fetchFailure (message : List Char) : FilesError :=
  if isMissing L message then .missing else .device "could not fetch the file"

/-- The outcome, and what is at the destination afterwards. -/
def fetch (name : Name) (destination : Option Bytes) (a : FetchAnswers) :
    Except FilesError Unit × Option Bytes :=
  if isRefused name then (.error .name, destination)
  else
    match a.serial with
    | .error message => (.error (fetchFailure L message), destination)
    | .ok () =>
      match a.size with
      | .error message => (.error (fetchFailure L message), destination)
      | .ok size =>
        if (MAX_FILE_SIZE : ℤ) < size then (.error .size, destination)
        else
          match a.sha256sum.bind (remoteChecksum L) with
          | .error message => (.error (fetchFailure L message), destination)
          | .ok checksum =>
            match a.pull.raised, a.pull.written with
            | some message, written => (.error (fetchFailure L message), written)
            | none, none => (.error .missing, none)
            | none, some bytes =>
              if MAX_FILE_SIZE < bytes.length then (.error .size, none)
              else if L.sha256 bytes ≠ checksum then
                (.error (fetchFailure L
                  "downloaded file checksum did not match device".toList), none)
              else (.ok (), some bytes)

structure ListAnswers where
  serial : Answer Unit
  find : Answer (List Name)
  size : Name → Answer ℤ

/-- The names and sizes that are listed. -/
def listFiles (a : ListAnswers) : Except FilesError (List (Name × ℤ)) :=
  let rows : Answer (List (Name × ℤ)) := do
    a.serial
    let names ← a.find
    (names.filter fun name => isRefused name = false).mapM fun name =>
      (a.size name).map fun size => (name, size)
  match rows with
  | .error message =>
    if isMissing L message then .ok [] else .error (.device "could not list files")
  | .ok rows => .ok (rows.mergeSort fun a b => a.1 ≤ b.1)

/-! ## A client of a device that answers -/

def noSuchFile (command : String) : List Char :=
  command.toList ++ ": No such file or directory".toList

def statOf (d : Device) (name : Name) : Answer ℤ :=
  match d.get name with
  | some b => .ok b.length
  | none => .error (noSuchFile "stat")

def listOf (d : Device) : ListAnswers := ⟨.ok (), .ok d.keys, statOf d⟩

def fetchOf (d : Device) (name : Name) : FetchAnswers where
  serial := .ok ()
  size := statOf d name
  sha256sum :=
    match d.get name with
    | some b => .ok (sha256sum L name b)
    | none => .error (noSuchFile "sha256sum")
  pull :=
    match d.get name with
    | some b => ⟨some b, none⟩
    | none => ⟨none, some (noSuchFile "adb: error")⟩

/-- What a client gets that lists the files and fetches this one where it is listed. -/
def clientGets (d : Device) (name : Name) : Option (Except FilesError Unit × Option Bytes) :=
  match listFiles L (listOf d) with
  | .error _ => none
  | .ok rows =>
    if ∃ row ∈ rows, row.1 = name then some (fetch L name none (fetchOf L d name)) else none

/-- After the call a client gets the whole upload, or exactly what it got before. -/
def LeavesNoWrongFile (d : Device) (name : Name) (content : Bytes) (a : StoreAnswers) : Prop :=
  clientGets L (store L d name content a).2 name = some (.ok (), some content)
    ∨ clientGets L (store L d name content a).2 name = clientGets L d name

/-! ## Where an upload can go wrong -/

/-- As much of a file as may be fetched. -/
def fetchable (b : Bytes) : Option Bytes := if b.length ≤ MAX_FILE_SIZE then some b else none

/-- There was nothing to lose: a push that fails has not opened the file, or has written all of it,
or the very prefix that was there; what has arrived is the upload, or is removed where nothing was
before, or else is what was there. -/
def HarmlessPush (d : Device) (name : Name) (content : Bytes) (a : StoreAnswers) : Prop :=
  match a.push with
  | .failed none => True
  | .failed (some n) =>
    content.length ≤ n ∨ (d.get name).map fetchable = some (some (content.take n))
  | .done arrived =>
    arrived = content ∨
      if a.sha256sum ∧ L.sha256 arrived ≠ L.sha256 content ∧ a.rm then d.get name = none
      else (d.get name).map fetchable = some (fetchable arrived)

/-- The push is reached. -/
def Pushes (name : Name) (content : Bytes) (a : StoreAnswers) : Prop :=
  isRefused name = false ∧ content.length ≤ MAX_FILE_SIZE ∧ a.serial ∧ a.mkdir

end Files

end Rackphone
