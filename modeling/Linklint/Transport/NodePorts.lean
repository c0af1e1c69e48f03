import Linklint.Lib.Custody
import Linklint.Transport.FetchState

/-!
# The sockets of the built-in adapter

The connector and the HTTP port share one table of connected sockets. A call opens
its own socket; once that is connected and has told its peer it is put into the
table under a fresh name, and `close` takes it out and destroys it. What the socket
and the callers do comes in any order.
-/

namespace Linklint

namespace NodePorts

open SafeSession

/-! ### What is read of a socket -/

structure SocketPeerFields where
  remoteAddress : Option Text
  remotePort : Option JsNum

structure ObservedPeer where
  address : Text
  port : Nat

/-- The peer a socket reports, never one of a request. -/
def observedPeer (socket : SocketPeerFields) : Option ObservedPeer := do
  let address ← socket.remoteAddress
  let port ← socket.remotePort
  let port ← port.toNat?
  if isIP address = none then none
  else if port < 1 ∨ 65535 < port then none
  else some { address, port }

/-- What is read of a peer certificate. -/
structure PeerCertificate where
  subjectaltname : Option Text
  /-- `checkServerIdentity(identity, certificate) === undefined` -/
  attests : Text → Bool

structure TlsPeer where
  authorized : Bool
  certificate : PeerCertificate

def peerDnsNames (certificate : PeerCertificate) : List Text :=
  match certificate.subjectaltname with
  | none => []
  | some names =>
      (((names.split (unit ',')).map Text.trim).filter fun entry =>
        entry.startsWith (text "DNS:")).map fun entry => entry.drop 4

/-! ### Failures -/

/-- A coded failure of the adapter, its abort error, or an error passed on with its code. -/
inductive NodeFailure where
  | port (code : TransportCauseCode)
  | abort
  | raw (code : Option Text)

def isHttps (request : ConnectRequest) : Bool := request.protocol == text "https:"

/-- `request.serverName ?? request.hostname` -/
def identity (request : ConnectRequest) : Text := request.serverName.getD request.hostname

def CERTIFICATE_ERRORS : List Text :=
  [text "DEPTH_ZERO_SELF_SIGNED_CERT", text "SELF_SIGNED_CERT_IN_CHAIN",
    text "UNABLE_TO_VERIFY_LEAF_SIGNATURE", text "CERT_HAS_EXPIRED",
    text "ERR_TLS_CERT_ALTNAME_INVALID"]

def isCertificateError (code : Option Text) : Bool :=
  code.any fun code => code.startsWith (text "ERR_TLS_CERT") || CERTIFICATE_ERRORS.contains code

/-- What a socket error makes of a pending `connect`. -/
def connectFailure (request : ConnectRequest) (code : Option Text) (aborted : Bool) : NodeFailure :=
  if aborted then .abort
  else if code = some (text "ECONNREFUSED") then .port .connectRefused
  else if code = some (text "ETIMEDOUT") then .port .connectTimeout
  else if isHttps request && isCertificateError code then .port .tlsCertificate
  else if isHttps request then .port .tlsHandshake
  else .raw code

def requestFailure (code : Option Text) : NodeFailure :=
  if code = some (text "ECONNRESET") ∨ code = some (text "EPIPE") then .port .httpReset
  else if code = some (text "ETIMEDOUT") then .port .httpTimeout
  else if code = some (text "HPE_HEADER_OVERFLOW") then .port .responseHeadersTooLarge
  else if code = some (text "ERR_INVALID_CHAR") ∨ code = some (text "ERR_INVALID_HTTP_TOKEN") then
    .port .httpMalformed
  else .raw code

/-- `/[^\t\x20-\x7e\x80-\xff]/` of one code unit. -/
def isUnsendable (u : CodeUnit) : Bool :=
  !(u == 9 || (0x20 ≤ u.toNat && u.toNat ≤ 0x7E) || (0x80 ≤ u.toNat && u.toNat ≤ 0xFF))

/-! ### Calls -/

inductive ConnectPhase where
  /-- the promise of the socket is pending -/
  | opening
  /-- it resolved, and `connect` has not gone on yet -/
  | connected
  | returned (connection : TransportConnection)
  | failed (failure : NodeFailure)

/-- A call of `connect`; its place among the calls is the identity of its socket. -/
structure ConnectCall where
  request : ConnectRequest
  phase : ConnectPhase
  /-- its socket was destroyed, or was never made -/
  destroyed : Bool

/-- The socket and the target a request was written to. -/
structure Dispatch where
  socket : Nat
  method : TransportMethod
  path : Text
  headers : Headers

/-- A call of `request`; the first result settles it. -/
structure RequestCall where
  request : HttpRequest
  dispatch : Option Dispatch
  result : Option (Except NodeFailure HttpResponse)

structure State where
  nextConnectionId : Nat
  /-- the entries of the map -/
  sockets : List (Text × Nat)
  calls : List ConnectCall
  requests : List RequestCall

/-- A new adapter. -/
def created : State where
  nextConnectionId := 1
  sockets := []
  calls := []
  requests := []

/-- What happens at the adapter: its methods are called, a socket emits `connect` (or
`secureConnect`) or `error`, an awaited promise goes on, a request is answered. -/
inductive Event where
  | connect (request : ConnectRequest) (refused : Bool)
  | connected (call : Nat) (peer : TlsPeer)
  | socketError (call : Nat) (code : Option Text) (aborted : Bool)
  | resumed (call : Nat) (fields : SocketPeerFields) (peer : TlsPeer)
  | close (connectionId : Text)
  /-- with the code of the error `http.request` throws, if it does -/
  | request (request : HttpRequest) (refused : Option (Option Text))
  | responded (call : Nat) (response : HttpResponse)
  | requestError (call : Nat) (code : Option Text)

/-- `node-${n}` -/
def connectionName (n : Nat) : Text := text "node-" ++ decimalText n

/-! ### Steps -/

def setCall (state : State) (call : Nat) (entry : ConnectCall) : State :=
  { state with calls := state.calls.set call entry }

/-- The call fails and its socket is destroyed. -/
def ConnectCall.fail (entry : ConnectCall) (failure : NodeFailure) : ConnectCall :=
  { entry with phase := .failed failure, destroyed := true }

/-- The peer is authorized and its certificate is one of the identity asked for. -/
def Verified (request : ConnectRequest) (peer : TlsPeer) : Prop :=
  peer.authorized = true ∧ peer.certificate.attests (identity request) = true

instance (request : ConnectRequest) (peer : TlsPeer) : Decidable (Verified request peer) := by
  unfold Verified
  infer_instance

/-- A socket is made, unless the options are refused when it is constructed. -/
def newCall (request : ConnectRequest) (refused : Bool) : ConnectCall :=
  if refused then { request, phase := .failed (.port .connectError), destroyed := true }
  else { request, phase := .opening, destroyed := false }

def onConnect (state : State) (request : ConnectRequest) (refused : Bool) : State :=
  { state with calls := state.calls ++ [newCall request refused] }

def onConnected (entry : ConnectCall) (peer : TlsPeer) : ConnectCall :=
  if isHttps entry.request = true ∧ ¬ Verified entry.request peer then
    entry.fail (.port .tlsCertificate)
  else { entry with phase := .connected }

def tlsEvidence (request : ConnectRequest) (peer : TlsPeer) : Option TlsEvidence :=
  if request.protocol = text "http:" then none
  else
    some
      { authorized := peer.authorized
        serverName := identity request
        peerDnsNames := peerDnsNames peer.certificate }

/-- What `connect` returns for the peer its socket reports. -/
def connectionTo (request : ConnectRequest) (id : Text) (observed : ObservedPeer) (peer : TlsPeer) :
    TransportConnection where
  id
  protocol := request.protocol
  remoteAddress := observed.address
  remotePort := .ofNat observed.port
  tls := tlsEvidence request peer

/-- The rest of `connect` once its socket is connected. -/
def onResumed (state : State) (call : Nat) (entry : ConnectCall) (fields : SocketPeerFields)
    (peer : TlsPeer) : State :=
  match observedPeer fields with
  | none => setCall state call (entry.fail (.port .connectError))
  | some observed =>
      let id := connectionName state.nextConnectionId
      let connection := connectionTo entry.request id observed peer
      { setCall state call { entry with phase := .returned connection } with
        nextConnectionId := state.nextConnectionId + 1
        sockets := state.sockets.filter (fun listed => listed.1 != id) ++ [(id, call)] }

def onClose (state : State) (connectionId : Text) : State :=
  match state.sockets.lookup connectionId with
  | none => state
  | some call =>
      let state :=
        { state with sockets := state.sockets.filter fun listed => listed.1 != connectionId }
      match state.calls[call]? with
      | none => state
      | some entry => setCall state call { entry with destroyed := true }

section
variable (urls : UrlApi)

/-- `request` up to its first await. -/
def newRequest (state : State) (request : HttpRequest) (refused : Option (Option Text)) :
    RequestCall :=
  let failed (failure : NodeFailure) : RequestCall :=
    { request, dispatch := none, result := some (.error failure) }
  match state.sockets.lookup request.connectionId with
  | none => failed (.port .httpReset)
  | some socket =>
      match urls.parse request.url with
      | none => failed (.raw (some (text "ERR_INVALID_URL")))
      | some url =>
          if request.headers.any fun field => field.2.any isUnsendable then
            failed (.port .httpMalformed)
          else
            match refused with
            | some code => failed (requestFailure code)
            | none =>
                { request
                  dispatch := some
                    { socket
                      method := request.method
                      path := url.pathname ++ url.search
                      headers := request.headers }
                  result := none }

/-- A dispatched request is answered; a settled one stays as it is. -/
def RequestCall.settle (call : RequestCall) (result : Except NodeFailure HttpResponse) :
    RequestCall :=
  if call.dispatch.isSome then { call with result := call.result.or (some result) } else call

def settleRequest (state : State) (call : Nat) (result : Except NodeFailure HttpResponse) : State :=
  match state.requests[call]? with
  | none => state
  | some entry => { state with requests := state.requests.set call (entry.settle result) }

/-- An event nobody listens for changes nothing. -/
def step (state : State) (event : Event) : State :=
  match event with
  | .connect request refused => onConnect state request refused
  | .connected call peer =>
      match state.calls[call]? with
      | some { request, phase := .opening, destroyed } =>
          setCall state call (onConnected { request, phase := .opening, destroyed } peer)
      | _ => state
  | .socketError call code aborted =>
      match state.calls[call]? with
      | some { request, phase := .opening, destroyed } =>
          setCall state call
            (ConnectCall.fail { request, phase := .opening, destroyed }
              (connectFailure request code aborted))
      | _ => state
  | .resumed call fields peer =>
      match state.calls[call]? with
      | some { request, phase := .connected, destroyed } =>
          onResumed state call { request, phase := .connected, destroyed } fields peer
      | _ => state
  | .close connectionId => onClose state connectionId
  | .request request refused =>
      { state with requests := state.requests ++ [newRequest urls state request refused] }
  | .responded call response => settleRequest state call (.ok response)
  | .requestError call code => settleRequest state call (.error (requestFailure code))

/-- The adapter after a sequence of events. -/
def run (events : List Event) : State := events.foldl (step urls) created

end

end NodePorts

end Linklint
