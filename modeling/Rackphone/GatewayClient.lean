import Rackphone.Lib.Run
import Rackphone.Renewal

/-!
# Renewals within one client

`_authenticated`, `_liveAccessToken` and `_renewOnce` of `gateway_client.dart` with the token
provider and `_persistTokens` that `session_controller.dart` gives them, for a session that is
signed in. Between two completions the isolate runs every continuation that is ready, so a step is
one completion with all that follows it: a response, a store operation, a request that begins. The
`TokenStore` completes its operations in the order they were started. The server is
`LoginService.refresh` on a table that others change too; it may also answer with an error, and no
answer is lost.
-/

namespace Rackphone

/-- How a renewal's future completes: the tokens, or the status of the exception. -/
abbrev RenewalOutcome := Except ℕ Tokens

inductive CallKind where
  | request
  /-- A socket that waits for `_liveAccessToken`. -/
  | socket
deriving DecidableEq

inductive CallPhase where
  | sent
  /-- The body of the 401 is drained. -/
  | draining
  /-- The token provider reads the store. -/
  | reading
  | waiting (renewal : ℕ)
  | retried
  | returned
  | failed
deriving DecidableEq

structure ClientCall where
  kind : CallKind
  phase : CallPhase
  /-- How often the request was sent. -/
  sends : ℕ
  /-- The renewal the call waited for, with what it saw of it. -/
  saw : Option (ℕ × RenewalOutcome)

inductive StoreOperation where
  | read (call : ℕ)
  | write (session : StoredSession)
deriving DecidableEq

inductive RenewalStage where
  /-- The token was presented and the server has yet to handle it. -/
  | presented
  /-- The answer is on its way. -/
  | handled (outcome : RenewalOutcome)
  /-- `_persistTokens` waits for its write. -/
  | persisting (tokens : Tokens)

structure RunningRenewal where
  number : ℕ
  token : String
  stage : RenewalStage

/-- A refresh token that was presented, with the answer that arrived. -/
structure Presentation where
  token : String
  outcome : RenewalOutcome

/-- Answered with an error, so that the token is what it was. -/
def Presentation.Refused (p : Presentation) : Prop := ∃ status, p.outcome = .error status

structure GatewayClient where
  server : AuthStore
  /-- What the `TokenStore` holds. -/
  stored : StoredSession
  operations : List StoreOperation
  /-- `SessionController._session`. -/
  session : StoredSession
  accessToken : Option AccessClaims
  /-- `_renewal`. -/
  renewal : Option RunningRenewal
  calls : List ClientCall
  /-- Every presentation that was answered, oldest first. -/
  answered : List Presentation

namespace GatewayClient

inductive Action where
  | request
  | openSocket
  /-- The answer to a request's first or second sending. -/
  | respond (i : ℕ) (status : ℕ)
  | drained (i : ℕ)
  /-- The store completes the operation started first. -/
  | complete
  /-- The server handles the refresh. -/
  | handle (replacement : String) (now : ℤ)
  /-- It answers with an error instead. -/
  | turnAway (status : ℕ)
  | answer
  /-- Another client's call at the server. -/
  | elsewhere (now : ℤ) (op : AuthStore.Op)

def start (server : AuthStore) (session : StoredSession) : GatewayClient where
  server := server
  stored := session
  operations := []
  session := session
  accessToken := none
  renewal := none
  calls := []
  answered := []

def setCall (s : GatewayClient) (i : ℕ) (c : ClientCall) : GatewayClient :=
  { s with calls := s.calls.set i c }

/-- `_renewOnce`: join the renewal that is running, or present the token. -/
def renewOnce (s : GatewayClient) (i : ℕ) (c : ClientCall) (token : String) : GatewayClient :=
  match s.renewal with
  | some running => s.setCall i { c with phase := .waiting running.number }
  | none =>
    { s with renewal := some (RunningRenewal.mk s.answered.length token .presented) }.setCall i
      { c with phase := .waiting s.answered.length }

/-- A call gets the token it asked the provider for. -/
def provided (s : GatewayClient) (i : ℕ) (c : ClientCall) (token : String) : GatewayClient :=
  if token = "" then
    match c.kind with
    | .request => s.setCall i { c with phase := .failed }
    | .socket => s.setCall i { c with phase := .returned }
  else s.renewOnce i c token

/-- A call that waits for the renewal goes on with its outcome. -/
def resumed (number : ℕ) (outcome : RenewalOutcome) (c : ClientCall) : ClientCall :=
  if c.phase = .waiting number then
    match outcome, c.kind with
    | .error _, _ => { c with phase := .failed, saw := some (number, outcome) }
    | .ok _, .request =>
      { c with phase := .retried, sends := c.sends + 1, saw := some (number, outcome) }
    | .ok _, .socket => { c with phase := .returned, saw := some (number, outcome) }
  else c

/-- The renewal's future completes: `_renewal` is cleared and every waiter runs on. -/
def settle (s : GatewayClient) (number : ℕ) (outcome : RenewalOutcome) : GatewayClient :=
  { s with renewal := none, calls := s.calls.map (resumed number outcome) }

variable (L : LoginService)

/-- The endpoint's answer: 401 for a refusal, 500 where the call raised. -/
def endpoint (server : AuthStore) (token replacement : String) (now : ℤ) :
    AuthStore × RenewalOutcome :=
  match L.refresh server token replacement now with
  | (server, .ok (.ok tokens)) => (server, .ok tokens)
  | (server, .ok (.error _)) => (server, .error 401)
  | (server, .error _) => (server, .error 500)

/-- The response to `/api/refresh` arrives. -/
def receive (s : GatewayClient) (running : RunningRenewal) (outcome : RenewalOutcome) :
    GatewayClient :=
  let s : GatewayClient := { s with answered := s.answered ++ [⟨running.token, outcome⟩] }
  match outcome with
  | .error _ => s.settle running.number outcome
  | .ok tokens =>
    { s with
      accessToken := some tokens.access
      operations := s.operations ++ [.write (s.session.renewed tokens)]
      renewal := some { running with stage := .persisting tokens } }

def step (s : GatewayClient) : Action → GatewayClient
  | .request => { s with calls := s.calls ++ [⟨.request, .sent, 1, none⟩] }
  | .openSocket =>
    { s with
      calls := s.calls ++ [⟨.socket, .reading, 0, none⟩]
      operations := s.operations ++ [.read s.calls.length] }
  | .respond i status =>
    match s.calls[i]? with
    | none => s
    | some c =>
      match c.phase with
      | .sent => s.setCall i { c with phase := if status = 401 then .draining else .returned }
      | .retried => s.setCall i { c with phase := if status = 401 then .failed else .returned }
      | _ => s
  | .drained i =>
    match s.calls[i]? with
    | none => s
    | some c =>
      if c.phase = .draining then
        { s with operations := s.operations ++ [StoreOperation.read i] }.setCall i
          { c with phase := .reading }
      else s
  | .complete =>
    match s.operations with
    | [] => s
    | .read i :: rest =>
      match s.calls[i]? with
      | none => { s with operations := rest }
      | some c => { s with operations := rest }.provided i c s.stored.refreshToken
    | .write session :: rest =>
      let s : GatewayClient := { s with operations := rest, stored := session, session }
      match s.renewal with
      | some ⟨number, _, .persisting tokens⟩ => s.settle number (.ok tokens)
      | _ => s
  | .handle replacement now =>
    match s.renewal with
    | some running =>
      match running.stage with
      | .presented =>
        let (server, outcome) := endpoint L s.server running.token replacement now
        { s with server, renewal := some { running with stage := .handled outcome } }
      | _ => s
    | none => s
  | .turnAway status =>
    match s.renewal with
    | some running =>
      match running.stage with
      | .presented =>
        { s with renewal := some { running with stage := .handled (.error status) } }
      | _ => s
    | none => s
  | .answer =>
    match s.renewal with
    | some running =>
      match running.stage with
      | .handled outcome => s.receive running outcome
      | _ => s
    | none => s
  | .elsewhere now op => { s with server := s.server.call now op }

/-- The token whose presentation is not answered yet. -/
def inFlight (s : GatewayClient) : Option String :=
  s.renewal.bind fun running =>
    match running.stage with
    | .presented | .handled _ => some running.token
    | .persisting _ => none

/-- The tokens presented so far, in that order. -/
def presented (s : GatewayClient) : List String :=
  s.answered.map Presentation.token ++ s.inFlight.toList

/-- From one state to the next, a call that waits for a renewal waits on or sees its outcome. -/
def Hears (s s' : GatewayClient) : Prop :=
  ∀ (i : ℕ) (c : ClientCall) (n : ℕ), s.calls[i]? = some c → c.phase = .waiting n →
    ∃ c' : ClientCall, s'.calls[i]? = some c' ∧ (c' = c ∨ ∃ outcome, c'.saw = some (n, outcome))

end GatewayClient

end Rackphone
