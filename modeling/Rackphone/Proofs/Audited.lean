import Rackphone.Proofs.Served

/-!
# What is written down

The audit only grows, and what was done for a request that was answered stands in it.
-/

namespace Rackphone

namespace TextGate

variable {G : TextGate} {s : LoginStore}

end TextGate

namespace Api

open Handler (Ensures Preserves)
open Json (codes)

variable {κ σ : Type} {A : Service κ σ} {c : Chance κ} {before : List AuditEntry}

/-- The action of the row that a request leaves, with its subject and its detail where the request
has them. -/
def Endpoint.entry : Endpoint → Option (String × Option (String × String))
  | acquireSession unit => some ("session_acquire", some (unit, ""))
  | takeOverSession unit => some ("session_takeover", some (unit, ""))
  | releaseSession unit => some ("session_release", some (unit, ""))
  | uploadFile unit name _ => some ("file_write", some (unit, fileDetail name "upload"))
  | deleteFile unit name => some ("file_write", some (unit, fileDetail name "remove"))
  | logIn body => some ("login", some (body.deviceLabel, "scope=" ++ body.scope))
  | refresh _ => some ("refresh", none)
  | logOut _ => some ("logout", none)
  | revokeAllSessions => some ("logout_everywhere", none)
  | enableTotp _ => some ("totp_enabled", some ("", ""))
  | disableTotp _ => some ("totp_disabled", some ("", ""))
  | sendMessage unit destination _ _ => some ("send_sms", some (unit, "to=" ++ destination))
  | answerCall unit => some ("answer_call", some (unit, ""))
  | rejectCall unit => some ("reject_call", some (unit, ""))
  | dialCall unit destination _ => some ("dial_call", some (unit, "to=" ++ destination))
  | endCall unit => some ("end_call", some (unit, ""))
  | health | readUnits | stats | heartbeatSession _ | readSession _ | relay ..
  | relayHeartbeat .. | relayEnd .. | contacts .. | sims _ | telemetry _ | listFiles _ | downloadFile .. | readSessions | revokeSession _
  | audit .. | readEvents .. | readMessages .. | readCalls .. | sendDtmf .. | stream => none

/-- The row is of this action, and of the time of the request. -/
structure Tells (c : Chance κ) (entry : String × Option (String × String)) (e : AuditEntry) :
    Prop where
  action : e.action = entry.1
  notBefore : c.now ≤ e.time
  notAfter : e.time ≤ c.afterwards
  said : ∀ said ∈ entry.2, (e.subject, e.detail) = said

/-- Rows were added, and one of them tells what was done. -/
def Recorded (before : List AuditEntry) (c : Chance κ)
    (entry : String × Option (String × String)) (s : State σ) : Prop :=
  ∃ new, s.store.audit = before ++ new ∧ ∃ e ∈ new, Tells c entry e

section Step

end Step

end Api

end Rackphone
