import RelayClient.Channel

/-!
# The client facade

`NativeClient` and its clones share two locked values with the event loop: the server channel slot and the
peer registry (`Client`). Each facade call takes a lock, changes the shared state, and sends at most one request
per channel on the outbound queue; here a call is a function from the shared state to an `Outcome` listing the
requests it sends. The outbound queue itself belongs to the run (`RelayClient.Run`) and to the scheduler
(`RelayClient.Scheduler`), which decide when the sends happen.

The fact proved here is the one every invariant of a run needs about the facade: a facade call keeps every
channel in the mode it was in (`Call.keepsModes_of_run`). It completes no handshake, neither fills nor empties
the server slot, and the only channel it creates is a peer channel in handshake mode.
-/

namespace RelayClient

/-- The peer registry, `HashMap<Vec<u8>, ProtocolState>`: the state of the channel to each peer key. -/
abbrev Registry (H T : Type) := Bytes → Option (ProtocolState H T)

namespace Registry

variable {H T : Type}

/-- `HashMap::default()`. -/
def empty : Registry H T := fun _ => none

/-- `HashMap::insert`. -/
def insert (r : Registry H T) (k : Bytes) (v : ProtocolState H T) : Registry H T :=
  Function.update r k (some v)

/-- `HashMap::remove`, forgetting the removed value. -/
def remove (r : Registry H T) (k : Bytes) : Registry H T := Function.update r k none

@[simp] theorem empty_apply (k : Bytes) : (empty : Registry H T) k = none := rfl

@[simp] theorem insert_apply (r : Registry H T) (k : Bytes) (v : ProtocolState H T) (k' : Bytes) :
    r.insert k v k' = if k' = k then some v else r k' := Function.update_apply ..

@[simp] theorem remove_apply (r : Registry H T) (k k' : Bytes) :
    r.remove k k' = if k' = k then none else r k' := Function.update_apply ..

/-- Writing back the value already present changes nothing. -/
theorem insert_of_apply {r : Registry H T} {k : Bytes} {v : ProtocolState H T} (h : r k = some v) :
    r.insert k v = r := by
  unfold insert; rw [← h]; exact Function.update_eq_self k r

@[simp] theorem insert_remove (r : Registry H T) (k : Bytes) (v : ProtocolState H T) :
    (r.remove k).insert k v = r.insert k v := Function.update_idem ..

end Registry

/-- The state the clones of a `NativeClient` share with its `EventLoop`: the server channel slot and the
peer registry, each behind an `RwLock`. -/
structure Client (H T : Type) where
  server : Option (ProtocolState H T)
  peers : Registry H T

/-- `Keypair`: the client's static Noise keys. -/
structure Keypair where
  «private» : Bytes
  «public» : Bytes
  deriving DecidableEq, Repr

/-- `ClientOptions`: the client's keypair and the server's static public key. -/
structure ClientOptions where
  keypair : Keypair
  serverPublicKey : Bytes
  deriving DecidableEq, Repr

namespace Client

variable {H T : Type}

open ProtocolState

/-- `c'` has every channel of `c` in the mode it had in `c`: no handshake completed, no transport lost, the
server slot neither filled nor emptied. -/
structure KeepsModes (c c' : Client H T) : Prop where
  server_transport : inTransport c'.server = inTransport c.server
  server_handshake : inHandshake c'.server = inHandshake c.server
  peers_transport : ∀ k, inTransport (c'.peers k) = inTransport (c.peers k)

@[refl] theorem KeepsModes.refl (c : Client H T) : KeepsModes c c := ⟨rfl, rfl, fun _ => rfl⟩

theorem KeepsModes.trans {c c' c'' : Client H T} (h : KeepsModes c c') (h' : KeepsModes c' c'') :
    KeepsModes c c'' :=
  ⟨h'.server_transport.trans h.server_transport, h'.server_handshake.trans h.server_handshake,
    fun k => (h'.peers_transport k).trans (h.peers_transport k)⟩

/-- Whether a channel is in transport mode. -/
def isOpen (c : Client H T) : Channel → Bool
  | .server => inTransport c.server
  | .peer k => inTransport (c.peers k)

theorem KeepsModes.isOpen_eq {c c' : Client H T} (h : KeepsModes c c') (ch : Channel) :
    c'.isOpen ch = c.isOpen ch := by
  cases ch with
  | server => exact h.server_transport
  | peer k => exact h.peers_transport k

/-- Replacing a peer entry by one of the same mode keeps modes. -/
theorem keepsModes_insert (c : Client H T) {k : Bytes} {v : ProtocolState H T}
    (hv : inTransport (some v) = inTransport (c.peers k)) : KeepsModes c { c with peers := c.peers.insert k v } :=
  ⟨rfl, rfl, fun k' => by by_cases hk : k' = k <;> simp [hk, hv]⟩

end Client

variable {H T : Type} (N : Noise H T) (codec : Codec) (opts : ClientOptions)

namespace NativeClient

/-- `NativeClient::new`, once the websocket upgrade has answered `status`: the server channel is a fresh
Noise initiator and the registry is empty. -/
def new (status : Nat) (statusText : String) : Except Error (Client H T) :=
  if status = 101 then
    match N.buildInitiator opts.keypair.«private» opts.serverPublicKey with
    | .error e => .error (.protocol e)
    | .ok handshake => .ok ⟨some (.handshake handshake), Registry.empty⟩
  else .error (.httpError status statusText)

/-- `NativeClient::connect`: write the first message of the server handshake and send it. -/
def connect (c : Client H T) : Outcome (Client H T) Unit :=
  match c.server with
  | some (.handshake initiator) =>
    match N.handshakeWrite initiator [] (zeros 1024) with
    | .error e => .returns c [] (.error (.protocol e))
    | .ok (len, payload, initiator') =>
      .returns { c with server := some (.handshake initiator') }
        [.transparent (.serverHandshake (.initiator len payload))] (.ok ())
  | _ => .returns c [] (.error .notHandshakeState)

/-- `NativeClient::connect_peer`: refuse a key already in the registry; otherwise enter a Noise initiator
for it (`entry(..).or_insert(..)`), write its first message and send it after dropping the lock. -/
def connectPeer (c : Client H T) (publicKey : Bytes) : Outcome (Client H T) Unit :=
  if (c.peers publicKey).isSome then .returns c [] (.error .peerAlreadyExists)
  else
    match N.buildInitiator opts.keypair.«private» publicKey with
    | .error e => .returns c [] (.error (.protocol e))
    | .ok handshake =>
      let state := (c.peers publicKey).getD (.handshake handshake)
      match state with
      | .handshake initiator =>
        match N.handshakeWrite initiator [] (zeros 1024) with
        | .error e => .returns { c with peers := c.peers.insert publicKey state } [] (.error (.protocol e))
        | .ok (len, payload, initiator') =>
          .returns { c with peers := c.peers.insert publicKey (.handshake initiator') }
            [.transparent (.peerHandshake publicKey (.initiator len payload))] (.ok ())
      | .transport _ => .returns { c with peers := c.peers.insert publicKey state } [] (.error .notHandshakeState)

/-- `NativeClient::relay`: seal a payload on a peer's channel and send it, holding the registry lock. -/
def relay (c : Client H T) (publicKey payload : Bytes) (encoding : Encoding) (broadcast : Bool)
    (sessionId : Option SessionId) : Outcome (Client H T) Unit :=
  match c.peers publicKey with
  | some peer =>
    match encryptPeerChannel N publicKey peer payload encoding broadcast sessionId with
    | .error e => .returns c [] (.error e)
    | .ok (request, peer') => .returns { c with peers := c.peers.insert publicKey peer' } [request] (.ok ())
  | none => .returns c [] (.error (.peerNotFound (hexEncode publicKey)))

/-- `NativeClient::send`: relay the JSON serialization of a value (`none` when `serde_json` refuses it). -/
def send (c : Client H T) (publicKey : Bytes) (serialized : Option Bytes) (sessionId : Option SessionId) :
    Outcome (Client H T) Unit :=
  match serialized with
  | none => .returns c [] (.error .json)
  | some payload => relay N c publicKey payload .json false sessionId

/-- `NativeClient::send_blob`. -/
def sendBlob (c : Client H T) (publicKey payload : Bytes) (sessionId : Option SessionId) :
    Outcome (Client H T) Unit :=
  relay N c publicKey payload .blob false sessionId

/-- `NativeClient::relay_broadcast`: relay to each recipient in turn, stopping at the first error. -/
def relayBroadcast (sessionId : SessionId) (payload : Bytes) (encoding : Encoding) :
    Client H T → List Bytes → Outcome (Client H T) Unit
  | c, [] => .returns c [] (.ok ())
  | c, key :: keys =>
    match relay N c key payload encoding true (some sessionId) with
    | .returns c' sent (.ok ()) => (relayBroadcast sessionId payload encoding c' keys).after sent
    | o => o

/-- `NativeClient::broadcast`: serialize once, relay to every recipient. -/
def broadcast (c : Client H T) (sessionId : SessionId) (recipients : List Bytes) (serialized : Option Bytes) :
    Outcome (Client H T) Unit :=
  match serialized with
  | none => .returns c [] (.error .json)
  | some payload => relayBroadcast N sessionId payload .json c recipients

/-- `NativeClient::broadcast_blob`. -/
def broadcastBlob (c : Client H T) (sessionId : SessionId) (recipients : List Bytes) (payload : Bytes) :
    Outcome (Client H T) Unit :=
  relayBroadcast N sessionId payload .blob c recipients

/-- `NativeClient::request`: encode a server message, seal it on the server channel, release the lock and send
it. The slot is assumed present (`unreachable!()` otherwise). -/
def request (c : Client H T) (message : ServerMessage) : Outcome (Client H T) Unit :=
  match c.server with
  | some server =>
    match codec.encode message with
    | .error e => .returns c [] (.error e)
    | .ok payload =>
      match encryptServerChannel N server payload false with
      | .error e => .returns c [] (.error e)
      | .ok (envelope, server') =>
        .returns { c with server := some server' } [.opaqueMessage (.serverMessage envelope)] (.ok ())
  | none => .panics unreachableCode

/-- `NativeClient::new_session`. -/
def newSession (c : Client H T) (participantKeys : List Bytes) : Outcome (Client H T) Unit :=
  request N codec c (.newSession ⟨participantKeys⟩)

/-- `NativeClient::session_ready_notify`. -/
def sessionReadyNotify (c : Client H T) (sessionId : SessionId) : Outcome (Client H T) Unit :=
  request N codec c (.sessionReadyNotify sessionId)

/-- `NativeClient::session_active_notify`. -/
def sessionActiveNotify (c : Client H T) (sessionId : SessionId) : Outcome (Client H T) Unit :=
  request N codec c (.sessionActiveNotify sessionId)

/-- `NativeClient::register_session_connection`. -/
def registerSessionConnection (c : Client H T) (sessionId : SessionId) (peerKey : Bytes) :
    Outcome (Client H T) Unit :=
  request N codec c (.sessionConnection sessionId peerKey)

/-- `NativeClient::close_session`. -/
def closeSession (c : Client H T) (sessionId : SessionId) : Outcome (Client H T) Unit :=
  request N codec c (.closeSession sessionId)

/-! ### Spec lemmas -/

open ProtocolState Client

variable {N codec opts}

theorem keepsModes_connect {c c' : Client H T} {sent : List RequestMessage} {r : Except Error Unit}
    (h : connect N c = .returns c' sent r) : KeepsModes c c' := by
  unfold connect at h
  split at h
  · split at h <;> cases h
    · rfl
    · exact ⟨by simp [*], by simp [*], fun _ => rfl⟩
  · cases h; rfl

theorem keepsModes_connectPeer {c c' : Client H T} {k : Bytes} {sent : List RequestMessage}
    {r : Except Error Unit} (h : connectPeer N opts c k = .returns c' sent r) : KeepsModes c c' := by
  unfold connectPeer at h
  split at h
  · cases h; rfl
  · rename_i hk
    have hk : c.peers k = none := by simpa using hk
    split at h
    · cases h; rfl
    · simp only [hk, Option.getD_none] at h
      split at h <;> cases h <;> exact keepsModes_insert c (by simp [hk])

/-- Relaying on a transport channel: the channel advances by one sealed message, which is sent. -/
theorem relay_transport {c : Client H T} {k p c₀ : Bytes} {t t' : T} (hk : c.peers k = some (.transport t))
    (hw : N.writeTransport t p = .ok (c₀, t')) (encoding : Encoding) (broadcast : Bool)
    (sessionId : Option SessionId) :
    relay N c k p encoding broadcast sessionId =
      .returns { c with peers := c.peers.insert k (.transport t') }
        [.opaqueMessage (.peerMessage k sessionId ⟨c₀.length, encoding, c₀, broadcast⟩)] (.ok ()) := by
  simp [relay, hk, encryptPeerChannel_transport hw]

/-- A server request on a transport channel: the channel advances by one sealed envelope, which is sent. -/
theorem request_transport {c : Client H T} {m : ServerMessage} {p x : Bytes} {t t' : T}
    (ht : c.server = some (.transport t)) (he : codec.encode m = .ok p) (hw : N.writeTransport t p = .ok (x, t')) :
    request N codec c m = .returns { c with server := some (.transport t') }
      [.opaqueMessage (.serverMessage ⟨x.length, .blob, x, false⟩)] (.ok ()) := by
  simp [request, ht, he, encryptServerChannel, Noise.transportWrite_exact hw]

theorem keepsModes_relay {c c' : Client H T} {k p : Bytes} {encoding : Encoding} {broadcast : Bool}
    {sessionId : Option SessionId} {sent : List RequestMessage} {r : Except Error Unit}
    (h : relay N c k p encoding broadcast sessionId = .returns c' sent r) : KeepsModes c c' := by
  unfold relay at h
  split at h
  · rename_i peer hk
    split at h
    · cases h; rfl
    · rename_i hs
      obtain ⟨t, t', -, rfl, rfl, -⟩ := encryptPeerChannel_ok hs
      cases h
      exact keepsModes_insert c (by simp [hk])
  · cases h; rfl

theorem keepsModes_relayBroadcast {sessionId : SessionId} {p : Bytes} {encoding : Encoding} :
    ∀ {c c' : Client H T} {keys : List Bytes} {sent : List RequestMessage} {r : Except Error Unit},
      relayBroadcast N sessionId p encoding c keys = .returns c' sent r → KeepsModes c c'
  | c, c', [], sent, r, h => by cases h; rfl
  | c, c', key :: keys, sent, r, h => by
    unfold relayBroadcast at h
    split at h
    · rename_i c₁ sent₁ h₁
      rcases h₂ : relayBroadcast N sessionId p encoding c₁ keys with ⟨c₂, sent₂, r₂⟩ | msg <;> rw [h₂] at h
      · cases h
        exact (keepsModes_relay h₁).trans (keepsModes_relayBroadcast h₂)
      · cases h
    · exact keepsModes_relay h

theorem keepsModes_request {c c' : Client H T} {m : ServerMessage} {sent : List RequestMessage}
    {r : Except Error Unit} (h : request N codec c m = .returns c' sent r) : KeepsModes c c' := by
  unfold request at h
  split at h
  · split at h
    · cases h; rfl
    · split at h
      · cases h; rfl
      · rename_i hs
        obtain ⟨t, t', -, rfl, rfl, -, -⟩ := encryptServerChannel_ok hs
        cases h
        exact ⟨by simp [*], by simp [*], fun _ => rfl⟩
  · cases h

/-! ### Successful calls -/

theorem connect_ok {c c' : Client H T} {sent : List RequestMessage} (h : connect N c = .returns c' sent (.ok ())) :
    c'.peers = c.peers ∧ ∃ len payload, sent = [.transparent (.serverHandshake (.initiator len payload))] := by
  unfold connect at h
  split at h
  · split at h <;> cases h
    exact ⟨rfl, _, _, rfl⟩
  · cases h

/-- `connect_peer` sends its request only when it succeeds: a fresh initiator for an absent key, which has
written the first handshake message. -/
theorem connectPeer_returns {c c' : Client H T} {k : Bytes} {sent : List RequestMessage} {r : Except Error Unit}
    (h : connectPeer N opts c k = .returns c' sent r) :
    (sent = [] ∧ ∃ e, r = .error e) ∨ r = .ok () ∧ c.peers k = none ∧ ∃ hi hi₁ len payload,
      N.buildInitiator opts.keypair.«private» k = .ok hi ∧
      N.handshakeWrite hi [] (zeros 1024) = .ok (len, payload, hi₁) ∧
      c' = { c with peers := c.peers.insert k (.handshake hi₁) } ∧
      sent = [.transparent (.peerHandshake k (.initiator len payload))] := by
  unfold connectPeer at h
  split at h
  · cases h; exact .inl ⟨rfl, _, rfl⟩
  · rename_i hk
    have hk : c.peers k = none := by simpa using hk
    split at h
    · cases h; exact .inl ⟨rfl, _, rfl⟩
    · simp only [hk, Option.getD_none] at h
      split at h <;> cases h
      · exact .inl ⟨rfl, _, rfl⟩
      · exact .inr ⟨rfl, hk, _, _, _, _, by assumption, by assumption, rfl, rfl⟩

theorem relay_ok {c c' : Client H T} {k p : Bytes} {encoding : Encoding} {broadcast : Bool}
    {sessionId : Option SessionId} {sent : List RequestMessage}
    (h : relay N c k p encoding broadcast sessionId = .returns c' sent (.ok ())) :
    ∃ t t' c₀, c.peers k = some (.transport t) ∧ N.writeTransport t p = .ok (c₀, t') ∧
      c' = { c with peers := c.peers.insert k (.transport t') } ∧
      sent = [.opaqueMessage (.peerMessage k sessionId ⟨c₀.length, encoding, c₀, broadcast⟩)] := by
  unfold relay at h
  split at h
  · rename_i peer hk
    split at h
    · cases h
    · rename_i hs
      obtain ⟨t, t', c₀, rfl, rfl, hw, rfl⟩ := encryptPeerChannel_ok hs
      cases h
      exact ⟨t, t', c₀, hk, hw, rfl, rfl⟩
  · cases h

theorem request_ok {c c' : Client H T} {m : ServerMessage} {sent : List RequestMessage}
    (h : request N codec c m = .returns c' sent (.ok ())) :
    c'.peers = c.peers ∧ ∃ envelope, sent = [.opaqueMessage (.serverMessage envelope)] := by
  unfold request at h
  split at h
  · split at h
    · cases h
    · split at h <;> cases h
      exact ⟨rfl, _, rfl⟩
  · cases h

end NativeClient

/-- A facade call, made through any clone of the client. -/
inductive Call
  | connect
  | connectPeer (publicKey : Bytes)
  | send (publicKey : Bytes) (serialized : Option Bytes) (sessionId : Option SessionId)
  | sendBlob (publicKey payload : Bytes) (sessionId : Option SessionId)
  | broadcast (sessionId : SessionId) (recipients : List Bytes) (serialized : Option Bytes)
  | broadcastBlob (sessionId : SessionId) (recipients : List Bytes) (payload : Bytes)
  | newSession (participantKeys : List Bytes)
  | sessionReadyNotify (sessionId : SessionId)
  | sessionActiveNotify (sessionId : SessionId)
  | registerSessionConnection (sessionId : SessionId) (peerKey : Bytes)
  | closeSession (sessionId : SessionId)
  deriving DecidableEq, Repr

/-- What a facade call does to the shared state. -/
def Call.run (c : Client H T) : Call → Outcome (Client H T) Unit
  | .connect => NativeClient.connect N c
  | .connectPeer k => NativeClient.connectPeer N opts c k
  | .send k s sid => NativeClient.send N c k s sid
  | .sendBlob k p sid => NativeClient.sendBlob N c k p sid
  | .broadcast sid ks s => NativeClient.broadcast N c sid ks s
  | .broadcastBlob sid ks p => NativeClient.broadcastBlob N c sid ks p
  | .newSession ks => NativeClient.newSession N codec c ks
  | .sessionReadyNotify sid => NativeClient.sessionReadyNotify N codec c sid
  | .sessionActiveNotify sid => NativeClient.sessionActiveNotify N codec c sid
  | .registerSessionConnection sid k => NativeClient.registerSessionConnection N codec c sid k
  | .closeSession sid => NativeClient.closeSession N codec c sid

variable {N codec opts} in
open NativeClient Client in
/-- A facade call keeps every channel in the mode it was in. -/
theorem Call.keepsModes_of_run {c c' : Client H T} {call : Call} {sent : List RequestMessage}
    {r : Except Error Unit} (h : call.run N codec opts c = .returns c' sent r) : KeepsModes c c' := by
  cases call with
  | connect => exact keepsModes_connect h
  | connectPeer => exact keepsModes_connectPeer h
  | send k s =>
    cases s with
    | none => cases h; rfl
    | some => exact keepsModes_relay h
  | sendBlob => exact keepsModes_relay h
  | broadcast sid ks s =>
    cases s with
    | none => cases h; rfl
    | some => exact keepsModes_relayBroadcast h
  | broadcastBlob => exact keepsModes_relayBroadcast h
  | _ => exact keepsModes_request h

end RelayClient
