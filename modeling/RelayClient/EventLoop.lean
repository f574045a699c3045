import RelayClient.Client

/-!
# Dispatch in the event loop

`EventLoop::handle_incoming_message` and the handlers it calls: the server handshake reply, the two halves of
a peer handshake, a relayed peer message and a server message. Each takes the lock it needs, changes the shared
state and yields at most one event; only the responder half of a peer handshake sends a request.

The file ends with what a dispatch can do to the channels, stated once for all messages
(`handleIncomingMessage_opens`): it opens at most the channel of the connection event it yields, and it yields a
message of a channel only while that channel is open. The two faults of the handlers (a failed server handshake
empties the server slot, a stray responder message removes a peer) are stated in `serverHandshake_returns` and
`peerHandshakeAck_returns`.
-/

namespace RelayClient

variable {H T : Type} (N : Noise H T) (codec : Codec) (opts : ClientOptions)

namespace EventLoop

/-- The initiator's completion in `server_handshake` and `peer_handshake_ack`: read the responder's message
into a 1024-byte buffer and enter transport mode. -/
def complete (initiator : H) (message : Bytes) : Except SnowError T :=
  match N.handshakeRead initiator message (zeros 1024) with
  | .error e => .error e
  | .ok (_, _, initiator') => N.intoTransportMode initiator'

/-- The responder's half in `peer_handshake_responder`: read the initiator's message, write the reply into a
1024-byte buffer and enter transport mode. -/
def respond (responder : H) (message : Bytes) : Except SnowError (Nat × Bytes × T) :=
  match N.handshakeRead responder message (zeros 1024) with
  | .error e => .error e
  | .ok (_, _, responder₁) =>
    match N.handshakeWrite responder₁ [] (zeros 1024) with
    | .error e => .error e
    | .ok (len, payload, responder₂) =>
      match N.intoTransportMode responder₂ with
      | .error e => .error e
      | .ok transport => .ok (len, payload, transport)

/-- `EventLoop::server_handshake`: `take()` the server slot; from a handshake, complete it and store the
transport. The slot stays empty on every error. -/
def serverHandshake (c : Client H T) (len : Nat) (buf : Bytes) : Outcome (Client H T) Event :=
  let taken := { c with server := none }
  match c.server with
  | some (.handshake initiator) =>
    match slice buf len with
    | none => .panics (sliceEndPanic len buf.length)
    | some message =>
      match complete N initiator message with
      | .error e => .returns taken [] (.error (.protocol e))
      | .ok transport =>
        .returns { c with server := some (.transport transport) } [] (.ok (.serverConnected opts.serverPublicKey))
  | _ => .returns taken [] (.error .notHandshakeState)

/-- `EventLoop::peer_handshake_responder`: refuse a key already in the registry; otherwise answer the
initiator, store the transport and send the reply while holding the registry lock. -/
def peerHandshakeResponder (c : Client H T) (publicKey : Bytes) (len : Nat) (buf : Bytes) :
    Outcome (Client H T) (Option Event) :=
  if (c.peers publicKey).isSome then .returns c [] (.error .peerAlreadyExistsMaybeRace)
  else
    match N.buildResponder opts.keypair.«private» publicKey with
    | .error e => .returns c [] (.error (.protocol e))
    | .ok responder =>
      match slice buf len with
      | none => .panics (sliceEndPanic len buf.length)
      | some message =>
        match respond N responder message with
        | .error e => .returns c [] (.error (.protocol e))
        | .ok (len', payload, transport) =>
          .returns { c with peers := c.peers.insert publicKey (.transport transport) }
            [.transparent (.peerHandshake publicKey (.responder len' payload))]
            (.ok (some (.peerConnected publicKey)))

/-- `EventLoop::peer_handshake_ack`: `remove` the entry, complete its handshake and insert the transport.
The entry stays removed on every error after the removal. -/
def peerHandshakeAck (c : Client H T) (publicKey : Bytes) (len : Nat) (buf : Bytes) : Outcome (Client H T) Event :=
  match c.peers publicKey with
  | none => .returns c [] (.error (.peerNotFound (hexEncode publicKey)))
  | some peer =>
    let removed := { c with peers := c.peers.remove publicKey }
    match peer with
    | .handshake initiator =>
      match slice buf len with
      | none => .panics (sliceEndPanic len buf.length)
      | some message =>
        match complete N initiator message with
        | .error e => .returns removed [] (.error (.protocol e))
        | .ok transport =>
          .returns { c with peers := removed.peers.insert publicKey (.transport transport) } []
            (.ok (.peerConnected publicKey))
    | .transport _ => .returns removed [] (.error .notHandshakeState)

/-- `EventLoop::handle_relayed_message`: open a peer envelope and yield it by its encoding. -/
def handleRelayedMessage (c : Client H T) (publicKey : Bytes) (envelope : SealedEnvelope)
    (sessionId : Option SessionId) : Outcome (Client H T) Event :=
  match c.peers publicKey with
  | some peer =>
    match decryptPeerChannel N peer envelope with
    | .panics msg => .panics msg
    | .returns peer' _ (.error e) => .returns { c with peers := c.peers.insert publicKey peer' } [] (.error e)
    | .returns peer' _ (.ok contents) =>
      let c' := { c with peers := c.peers.insert publicKey peer' }
      match envelope.encoding with
      | .noop => .panics unreachableCode
      | .blob => .returns c' [] (.ok (.binaryMessage publicKey contents sessionId))
      | .json => .returns c' [] (.ok (.jsonMessage publicKey ⟨contents⟩ sessionId))
  | none => .returns c [] (.error (.peerNotFound (hexEncode publicKey)))

/-- `EventLoop::handle_server_channel_message`: the event a server message yields. -/
def handleServerChannelMessage : ServerMessage → Except Error (Option Event)
  | .error code message => .error (.serverError code message)
  | .sessionCreated response => .ok (some (.sessionCreated response))
  | .sessionReady response => .ok (some (.sessionReady response))
  | .sessionActive response => .ok (some (.sessionActive response))
  | .sessionFinished sessionId => .ok (some (.sessionFinished sessionId))
  | _ => .ok none

/-- The `Opaque::ServerMessage` arm: open the envelope on the server channel, decode a `Blob` plaintext and
dispatch it. The slot is assumed present (`unreachable!()` otherwise). -/
def handleServerMessage (c : Client H T) (envelope : SealedEnvelope) : Outcome (Client H T) (Option Event) :=
  match c.server with
  | some server =>
    match decryptServerChannel N server envelope with
    | .panics msg => .panics msg
    | .returns server' _ (.error e) => .returns { c with server := some server' } [] (.error e)
    | .returns server' _ (.ok (encoding, contents)) =>
      match encoding with
      | .blob =>
        match codec.decode contents with
        | .error e => .returns { c with server := some server' } [] (.error e)
        | .ok message => .returns { c with server := some server' } [] (handleServerChannelMessage message)
      | _ => .panics "unexpected encoding received from server"
  | none => .panics unreachableCode

/-- `EventLoop::handle_incoming_message`: five arms, and a catch-all `panic!` for every other message. The arm
that would turn an `Error(code, message)` frame into `Err(HttpError(code, message))` is commented out in the
source, so an error frame falls to the catch-all too. -/
def handleIncomingMessage (c : Client H T) : ResponseMessage → Outcome (Client H T) (Option Event)
  | .transparent (.serverHandshake (.responder len buf)) => (serverHandshake N opts c len buf).map some
  | .transparent (.peerHandshake publicKey (.initiator len buf)) => peerHandshakeResponder N opts c publicKey len buf
  | .transparent (.peerHandshake publicKey (.responder len buf)) => (peerHandshakeAck N c publicKey len buf).map some
  | .opaqueMessage (.peerMessage publicKey sessionId envelope) =>
    (handleRelayedMessage N c publicKey envelope sessionId).map some
  | .opaqueMessage (.serverMessage envelope) => handleServerMessage N codec c envelope
  | _ => .panics "unhandled message"

/-- Whether `handle_incoming_message` has an arm for a message: the other messages are the `Noop` variants, the
server's error frames, and the handshake frames whose message has the wrong role or is `Noop`. -/
def hasArm : ResponseMessage → Bool
  | .transparent (.serverHandshake (.responder ..)) | .transparent (.peerHandshake _ (.initiator ..))
  | .transparent (.peerHandshake _ (.responder ..)) | .opaqueMessage (.peerMessage ..)
  | .opaqueMessage (.serverMessage _) => true
  | _ => false

/-! ### What each handler can do -/

open ProtocolState Client

variable {N codec opts}

/-- A message without an arm aborts the loop, whatever the state. -/
theorem handleIncomingMessage_unhandled (c : Client H T) {m : ResponseMessage} (h : hasArm m = false) :
    handleIncomingMessage N codec opts c m = .panics "unhandled message" := by
  unfold handleIncomingMessage
  split <;> simp_all [hasArm]

/-- A server handshake succeeds only from a handshake, storing a transport; it fails with the slot empty. -/
theorem serverHandshake_returns {c c' : Client H T} {len : Nat} {buf : Bytes} {sent : List RequestMessage}
    {r : Except Error Event} (h : serverHandshake N opts c len buf = .returns c' sent r) :
    sent = [] ∧ c'.peers = c.peers ∧
      ((∃ hs t, c.server = some (.handshake hs) ∧ c'.server = some (.transport t) ∧
        r = .ok (.serverConnected opts.serverPublicKey)) ∨ (c'.server = none ∧ ∃ e, r = .error e)) := by
  unfold serverHandshake at h
  split at h
  · split at h
    · cases h
    · split at h <;> cases h
      · exact ⟨rfl, rfl, .inr ⟨rfl, _, rfl⟩⟩
      · exact ⟨rfl, rfl, .inl ⟨_, _, by assumption, rfl, rfl⟩⟩
  · cases h; exact ⟨rfl, rfl, .inr ⟨rfl, _, rfl⟩⟩

theorem complete_ok {hi : H} {message : Bytes} {ti : T} (h : complete N hi message = .ok ti) :
    ∃ y hi₂, N.readHandshake hi message = .ok (y, hi₂) ∧ N.intoTransportMode hi₂ = .ok ti := by
  unfold complete at h
  split at h
  · cases h
  · obtain ⟨y, hr, -⟩ := Noise.throughBuffer_ok (by assumption)
    exact ⟨y, _, hr, h⟩

theorem respond_ok {hr : H} {message payload : Bytes} {len : Nat} {tr : T}
    (h : respond N hr message = .ok (len, payload, tr)) :
    ∃ x hr₁ m hr₂, N.readHandshake hr message = .ok (x, hr₁) ∧ N.writeHandshake hr₁ [] = .ok (m, hr₂) ∧
      N.intoTransportMode hr₂ = .ok tr ∧ slice payload len = some m := by
  unfold respond at h
  split at h
  · cases h
  · obtain ⟨x, hx, -⟩ := Noise.throughBuffer_ok (by assumption)
    split at h
    · cases h
    · obtain ⟨m, hm, rfl, rfl, -⟩ := Noise.throughBuffer_ok (by assumption)
      split at h <;> cases h
      exact ⟨x, _, m, _, hx, hm, by assumption, slice_append ..⟩

/-- `take()` is not undone: a server handshake reply on a channel already in transport mode empties the slot. -/
theorem serverHandshake_transport {c : Client H T} {t : T} (ht : c.server = some (.transport t)) (len : Nat)
    (buf : Bytes) :
    serverHandshake N opts c len buf = .returns { c with server := none } [] (.error .notHandshakeState) := by
  simp [serverHandshake, ht]

/-- The responder half succeeds only for an absent key, storing a transport and sending the reply; it fails
with nothing changed. -/
theorem peerHandshakeResponder_returns {c c' : Client H T} {k : Bytes} {len : Nat} {buf : Bytes}
    {sent : List RequestMessage} {r : Except Error (Option Event)}
    (h : peerHandshakeResponder N opts c k len buf = .returns c' sent r) :
    (c.peers k = none ∧ ∃ t len' payload, c' = { c with peers := c.peers.insert k (.transport t) } ∧
        sent = [.transparent (.peerHandshake k (.responder len' payload))] ∧ r = .ok (some (.peerConnected k))) ∨
      (c' = c ∧ sent = [] ∧ ∃ e, r = .error e) := by
  unfold peerHandshakeResponder at h
  split at h
  · cases h; exact .inr ⟨rfl, rfl, _, rfl⟩
  · rename_i hk
    split at h
    · cases h; exact .inr ⟨rfl, rfl, _, rfl⟩
    · split at h
      · cases h
      · split at h <;> cases h
        · exact .inr ⟨rfl, rfl, _, rfl⟩
        · exact .inl ⟨by simpa using hk, _, _, _, rfl, rfl, rfl⟩

/-- The initiator's completion succeeds only from a handshake entry, storing a transport. It fails with
nothing changed when the key is absent, and otherwise with the entry removed. -/
theorem peerHandshakeAck_returns {c c' : Client H T} {k : Bytes} {len : Nat} {buf : Bytes}
    {sent : List RequestMessage} {r : Except Error Event}
    (h : peerHandshakeAck N c k len buf = .returns c' sent r) :
    sent = [] ∧ c'.server = c.server ∧
      ((∃ hs t, c.peers k = some (.handshake hs) ∧ c'.peers = c.peers.insert k (.transport t) ∧
          r = .ok (.peerConnected k)) ∨
        (c' = c ∧ c.peers k = none ∧ r = .error (.peerNotFound (hexEncode k))) ∨
        (c'.peers = c.peers.remove k ∧ ∃ e, r = .error e)) := by
  unfold peerHandshakeAck at h
  split at h
  · cases h; exact ⟨rfl, rfl, .inr (.inl ⟨rfl, by assumption, rfl⟩)⟩
  · split at h
    · split at h
      · cases h
      · split at h <;> cases h
        · exact ⟨rfl, rfl, .inr (.inr ⟨rfl, _, rfl⟩)⟩
        · exact ⟨rfl, rfl, .inl ⟨_, _, by assumption, Registry.insert_remove .., rfl⟩⟩
    · cases h; exact ⟨rfl, rfl, .inr (.inr ⟨rfl, _, rfl⟩)⟩

/-- The responder half succeeds by building a responder, answering the initiator's message and storing the
transport. -/
theorem peerHandshakeResponder_ok {c c' : Client H T} {k : Bytes} {len : Nat} {buf : Bytes}
    {sent : List RequestMessage} {ev : Option Event}
    (h : peerHandshakeResponder N opts c k len buf = .returns c' sent (.ok ev)) :
    ∃ hr message len' payload tr, N.buildResponder opts.keypair.«private» k = .ok hr ∧
      slice buf len = some message ∧ respond N hr message = .ok (len', payload, tr) ∧
      c' = { c with peers := c.peers.insert k (.transport tr) } ∧
      sent = [.transparent (.peerHandshake k (.responder len' payload))] := by
  unfold peerHandshakeResponder at h
  split at h
  · cases h
  · split at h
    · cases h
    · split at h
      · cases h
      · split at h <;> cases h
        exact ⟨_, _, _, _, _, by assumption, by assumption, by assumption, rfl, rfl⟩

/-- The initiator's completion succeeds by completing the handshake entry and storing the transport. -/
theorem peerHandshakeAck_ok {c c' : Client H T} {k : Bytes} {len : Nat} {buf : Bytes}
    {sent : List RequestMessage} {ev : Event} (h : peerHandshakeAck N c k len buf = .returns c' sent (.ok ev)) :
    ∃ hi message ti, c.peers k = some (.handshake hi) ∧ slice buf len = some message ∧
      complete N hi message = .ok ti ∧ c' = { c with peers := c.peers.insert k (.transport ti) } := by
  unfold peerHandshakeAck at h
  split at h
  · cases h
  · split at h
    · split at h
      · cases h
      · split at h <;> cases h
        exact ⟨_, _, _, by assumption, by assumption, by assumption, by simp⟩
    · cases h

/-- `remove` is not undone: a responder message for a peer already in transport mode removes the peer. -/
theorem peerHandshakeAck_transport {c : Client H T} {k : Bytes} {t : T} (ht : c.peers k = some (.transport t))
    (len : Nat) (buf : Bytes) :
    peerHandshakeAck N c k len buf = .returns { c with peers := c.peers.remove k } [] (.error .notHandshakeState) := by
  simp [peerHandshakeAck, ht]

/-- A relayed message keeps every channel's mode, and yields an event only from a peer in transport mode,
as a message of that peer's channel. -/
theorem handleRelayedMessage_returns {c c' : Client H T} {k : Bytes} {envelope : SealedEnvelope}
    {sessionId : Option SessionId} {sent : List RequestMessage} {r : Except Error Event}
    (h : handleRelayedMessage N c k envelope sessionId = .returns c' sent r) :
    sent = [] ∧ KeepsModes c c' ∧ ∀ ev, r = .ok ev → inTransport (c.peers k) ∧ ev.channel = some (.peer k) := by
  unfold handleRelayedMessage at h
  split at h
  · rename_i peer hk
    split at h
    · cases h
    · rename_i hd
      obtain ⟨-, ⟨hs, rfl, rfl, -⟩ | ⟨u, u', rfl, rfl⟩⟩ := decryptPeerChannel_returns hd <;> cases h <;>
        exact ⟨rfl, keepsModes_insert c (by simp [hk]), by simp⟩
    · rename_i hd
      obtain ⟨-, ⟨hs, rfl, rfl, he⟩ | ⟨u, u', rfl, rfl⟩⟩ := decryptPeerChannel_returns hd
      · cases he
      · split at h <;> cases h <;>
          exact ⟨rfl, keepsModes_insert c (by simp [hk]), by simp [hk, Event.channel]⟩
  · cases h; exact ⟨rfl, .refl c, by simp⟩

/-- What a relayed message yields once its first `length` bytes open on the peer's entry: the opened bytes,
in the variant the encoding label picks; nothing else of the envelope is read. -/
theorem handleRelayedMessage_of_read {c : Client H T} {k p : Bytes} {u u' : T} {envelope : SealedEnvelope}
    (hk : c.peers k = some (.transport u)) (hl : envelope.length ≤ envelope.payload.length)
    (hr : N.readTransport u (envelope.payload.take envelope.length) = .ok (p, u')) (sessionId : Option SessionId) :
    handleRelayedMessage N c k envelope sessionId =
      match envelope.encoding with
      | .noop => .panics unreachableCode
      | .blob => .returns { c with peers := c.peers.insert k (.transport u') } [] (.ok (.binaryMessage k p sessionId))
      | .json =>
        .returns { c with peers := c.peers.insert k (.transport u') } [] (.ok (.jsonMessage k ⟨p⟩ sessionId)) := by
  simp only [handleRelayedMessage, hk, decryptPeerChannel_of_read hl hr]

/-- An envelope the peer sealed on the state paired with its entry opens to the sealed plaintext and advances
the entry; what the message yields is then chosen by the encoding label alone, which travels outside the
ciphertext. -/
theorem handleRelayedMessage_sealed {c : Client H T} {k p c₀ : Bytes} {t t' u : T}
    (hk : c.peers k = some (.transport u)) (hp : N.Paired t u) (hw : N.writeTransport t p = .ok (c₀, t'))
    (encoding : Encoding) (broadcast : Bool) (sessionId : Option SessionId) :
    ∃ u', N.Paired t' u' ∧ handleRelayedMessage N c k ⟨c₀.length, encoding, c₀, broadcast⟩ sessionId =
      match encoding with
      | .noop => .panics unreachableCode
      | .blob => .returns { c with peers := c.peers.insert k (.transport u') } [] (.ok (.binaryMessage k p sessionId))
      | .json =>
        .returns { c with peers := c.peers.insert k (.transport u') } [] (.ok (.jsonMessage k ⟨p⟩ sessionId)) := by
  obtain ⟨u', hr, hp'⟩ := N.readTransport_of_paired hp hw
  exact ⟨u', hp', handleRelayedMessage_of_read hk (Nat.le_refl c₀.length) (by simpa using hr) sessionId⟩

private theorem handleServerChannelMessage_channel {m : ServerMessage} {ev : Event}
    (h : handleServerChannelMessage m = .ok (some ev)) : ev.channel = some .server ∧ ev.announces = none := by
  cases m <;> cases h <;> exact ⟨rfl, rfl⟩

/-- A server message keeps every channel's mode, and yields an event only from a server channel in transport
mode, as a message of the server channel. -/
theorem handleServerMessage_returns {c c' : Client H T} {envelope : SealedEnvelope}
    {sent : List RequestMessage} {r : Except Error (Option Event)}
    (h : handleServerMessage N codec c envelope = .returns c' sent r) :
    sent = [] ∧ KeepsModes c c' ∧
      ∀ ev, r = .ok (some ev) → inTransport c.server ∧ ev.channel = some .server ∧ ev.announces = none := by
  unfold handleServerMessage at h
  split at h
  · rename_i server hs
    split at h
    · cases h
    · obtain ⟨-, ⟨_, rfl, rfl, -⟩ | ⟨u, u', rfl, rfl⟩⟩ := decryptServerChannel_returns (by assumption) <;>
        cases h <;> exact ⟨rfl, ⟨by simp [hs], by simp [hs], fun _ => rfl⟩, by simp⟩
    · obtain ⟨-, ⟨_, rfl, rfl, he⟩ | ⟨u, u', rfl, rfl⟩⟩ := decryptServerChannel_returns (by assumption)
      · cases he
      · have hk : KeepsModes c { c with server := some (.transport u') } := ⟨by simp [hs], by simp [hs], fun _ => rfl⟩
        split at h
        · split at h <;> cases h
          · exact ⟨rfl, hk, by simp⟩
          · exact ⟨rfl, hk, fun ev hev => ⟨by simp [hs], handleServerChannelMessage_channel hev⟩⟩
        · cases h
  · cases h

/-- A dispatch that returns has run the handler of the message's arm. -/
theorem handleIncomingMessage_returns {c c' : Client H T} {m : ResponseMessage} {sent : List RequestMessage}
    {r : Except Error (Option Event)} (h : handleIncomingMessage N codec opts c m = .returns c' sent r) :
    (∃ len buf r', m = .transparent (.serverHandshake (.responder len buf)) ∧
        serverHandshake N opts c len buf = .returns c' sent r' ∧ r = r'.map some) ∨
      (∃ k len buf, m = .transparent (.peerHandshake k (.initiator len buf)) ∧
        peerHandshakeResponder N opts c k len buf = .returns c' sent r) ∨
      (∃ k len buf r', m = .transparent (.peerHandshake k (.responder len buf)) ∧
        peerHandshakeAck N c k len buf = .returns c' sent r' ∧ r = r'.map some) ∨
      (∃ k sessionId envelope r', m = .opaqueMessage (.peerMessage k sessionId envelope) ∧
        handleRelayedMessage N c k envelope sessionId = .returns c' sent r' ∧ r = r'.map some) ∨
      ∃ envelope, m = .opaqueMessage (.serverMessage envelope) ∧
        handleServerMessage N codec c envelope = .returns c' sent r := by
  unfold handleIncomingMessage at h
  split at h
  · obtain ⟨r', h', rfl⟩ := Outcome.map_eq_returns h
    exact .inl ⟨_, _, r', rfl, h', rfl⟩
  · exact .inr (.inl ⟨_, _, _, rfl, h⟩)
  · obtain ⟨r', h', rfl⟩ := Outcome.map_eq_returns h
    exact .inr (.inr (.inl ⟨_, _, _, r', rfl, h', rfl⟩))
  · obtain ⟨r', h', rfl⟩ := Outcome.map_eq_returns h
    exact .inr (.inr (.inr (.inl ⟨_, _, _, r', rfl, h', rfl⟩)))
  · exact .inr (.inr (.inr (.inr ⟨_, rfl, h⟩)))
  · cases h

/-! ### What a dispatch can do -/

/-- What a dispatch from `c` to `c'` with result `r` may do to the channels: open only the channel whose
connection it announces, and yield a message of a channel only if the channel was open. -/
structure Opens (c c' : Client H T) (r : Except Error (Option Event)) : Prop where
  opened : ∀ ch, c'.isOpen ch → c.isOpen ch ∨ ∃ ev, r = .ok (some ev) ∧ ev.announces = some ch
  message : ∀ ev ch, r = .ok (some ev) → ev.channel = some ch → c.isOpen ch

theorem Opens.of_le {c c' : Client H T} {r : Except Error (Option Event)} (h : ∀ ch, c'.isOpen ch → c.isOpen ch)
    (hm : ∀ ev ch, r = .ok (some ev) → ev.channel = some ch → c.isOpen ch) : Opens c c' r :=
  ⟨fun ch hch => .inl (h ch hch), hm⟩

/-- A dispatch that yields the connection event of `ch₀` and opens nothing but `ch₀`. -/
theorem Opens.of_announces {c c' : Client H T} {ev : Event} {ch₀ : Channel}
    (h : ∀ ch, c'.isOpen ch → c.isOpen ch ∨ ch = ch₀) (ha : ev.announces = some ch₀) (hc : ev.channel = none) :
    Opens c c' (.ok (some ev)) :=
  ⟨fun ch hch => (h ch hch).imp_right fun (e : ch = ch₀) => ⟨ev, rfl, e ▸ ha⟩, by rintro _ _ ⟨⟩; simp [hc]⟩

private theorem opens_serverHandshake {c c' : Client H T} {len : Nat} {buf : Bytes} {sent : List RequestMessage}
    {r : Except Error Event} (h : serverHandshake N opts c len buf = .returns c' sent r) :
    Opens c c' (r.map some) := by
  obtain ⟨-, hp, ⟨hs, t, -, -, rfl⟩ | ⟨hs', e, rfl⟩⟩ := serverHandshake_returns h
  · refine .of_announces (fun ch hch => ?_) rfl rfl
    cases ch with
    | server => exact .inr rfl
    | peer k => exact .inl (by simpa [isOpen, hp] using hch)
  · refine .of_le (fun ch hch => ?_) (by simp [Except.map])
    cases ch with
    | server => simp [isOpen, hs'] at hch
    | peer k => simpa [isOpen, hp] using hch

private theorem opens_peerHandshakeResponder {c c' : Client H T} {k : Bytes} {len : Nat} {buf : Bytes}
    {sent : List RequestMessage} {r : Except Error (Option Event)}
    (h : peerHandshakeResponder N opts c k len buf = .returns c' sent r) : Opens c c' r := by
  obtain ⟨-, t, -, -, rfl, -, rfl⟩ | ⟨rfl, -, e, rfl⟩ := peerHandshakeResponder_returns h
  · refine .of_announces (fun ch hch => ?_) rfl rfl
    cases ch with
    | server => exact .inl hch
    | peer k' => by_cases hk : k' = k <;> simp_all [isOpen]
  · exact .of_le (fun _ => id) (by simp)

private theorem opens_peerHandshakeAck {c c' : Client H T} {k : Bytes} {len : Nat} {buf : Bytes}
    {sent : List RequestMessage} {r : Except Error Event} (h : peerHandshakeAck N c k len buf = .returns c' sent r) :
    Opens c c' (r.map some) := by
  obtain ⟨-, hs, ⟨_, t, -, hp, rfl⟩ | ⟨rfl, -, rfl⟩ | ⟨hp, e, rfl⟩⟩ := peerHandshakeAck_returns h
  · refine .of_announces (fun ch hch => ?_) rfl rfl
    cases ch with
    | server => exact .inl (by simpa [isOpen, hs] using hch)
    | peer k' => by_cases hk : k' = k <;> simp_all [isOpen]
  · exact .of_le (fun _ => id) (by simp [Except.map])
  · refine .of_le (fun ch hch => ?_) (by simp [Except.map])
    cases ch with
    | server => simpa [isOpen, hs] using hch
    | peer k' => by_cases hk : k' = k <;> simp_all [isOpen]

/-- What a dispatch can do to the channels, for every message: it opens at most the channel whose connection
event it yields, and yields a message of a channel only while that channel is open. -/
theorem handleIncomingMessage_opens {c c' : Client H T} {m : ResponseMessage} {sent : List RequestMessage}
    {r : Except Error (Option Event)} (h : handleIncomingMessage N codec opts c m = .returns c' sent r) :
    Opens c c' r := by
  rcases handleIncomingMessage_returns h with ⟨len, buf, r', -, h', rfl⟩ | ⟨k, len, buf, -, h'⟩ |
    ⟨k, len, buf, r', -, h', rfl⟩ | ⟨k, sid, env, r', -, h', rfl⟩ | ⟨env, -, h'⟩
  · exact opens_serverHandshake h'
  · exact opens_peerHandshakeResponder h'
  · exact opens_peerHandshakeAck h'
  · obtain ⟨-, hk, hm⟩ := handleRelayedMessage_returns h'
    refine .of_le (fun ch => by rw [hk.isOpen_eq ch]; exact id) fun ev ch hev hc => ?_
    cases r' with
    | error => cases hev
    | ok ev' =>
      cases hev
      obtain ⟨ht, hc'⟩ := hm ev rfl
      cases hc.symm.trans hc'
      exact ht
  · obtain ⟨-, hk, hm⟩ := handleServerMessage_returns h'
    exact .of_le (fun ch => by rw [hk.isOpen_eq ch]; exact id) fun ev ch hev hc => by
      obtain ⟨ht, hc', -⟩ := hm ev hev
      cases hc.symm.trans hc'
      exact ht

end EventLoop

end RelayClient
