import RelayClient.Noise

/-!
# Sealing and opening envelopes

`encrypt_peer_channel` seals a payload into a buffer of `payload.len() + TAGLEN` bytes and wraps the envelope
in a `PeerMessage` request; `decrypt_peer_channel` opens the first `length` bytes of an envelope into a buffer of
`length` bytes and truncates it to `length - TAGLEN`. The server channel seals and opens the same way
(`encryptServerChannel`, `decryptServerChannel`, modelled from the spec since the protocol crate is not among
the sources).

The main facts: a sealed envelope carries exactly the ciphertext (`encryptPeerChannel_transport`), opening it on
the paired state gives the plaintext back, the two buffer lengths cancelling (`decryptPeerChannel_sealed`), and
opening reads nothing of an envelope but its first `length` bytes (`decryptPeerChannel_of_read`).
-/

namespace RelayClient

variable {H T : Type} (N : Noise H T)

/-- `encrypt_peer_channel`: seal `payload` on a peer channel in transport mode, as a `PeerMessage` request;
the second component is the channel's new state. -/
def encryptPeerChannel (publicKey : Bytes) (peer : ProtocolState H T) (payload : Bytes) (encoding : Encoding)
    (broadcast : Bool) (sessionId : Option SessionId) : Except Error (RequestMessage × ProtocolState H T) :=
  match peer with
  | .transport transport =>
    match N.transportWrite transport payload (zeros (payload.length + N.tagLen)) with
    | .error e => .error (.protocol e)
    | .ok (length, contents, transport') =>
      .ok (.opaqueMessage (.peerMessage publicKey sessionId ⟨length, encoding, contents, broadcast⟩),
        .transport transport')
  | .handshake _ => .error .notTransportState

/-- `decrypt_peer_channel`: open an envelope on a peer channel in transport mode; the state returned is the
channel's new state. -/
def decryptPeerChannel (peer : ProtocolState H T) (envelope : SealedEnvelope) : Outcome (ProtocolState H T) Bytes :=
  match peer with
  | .transport transport =>
    match slice envelope.payload envelope.length with
    | none => .panics (sliceEndPanic envelope.length envelope.payload.length)
    | some message =>
      match N.transportRead transport message (zeros envelope.length) with
      | .error e => .returns peer [] (.error (.protocol e))
      | .ok (_, contents, transport') =>
        if contents.length < N.tagLen then .panics subtractOverflow
        else .returns (.transport transport') [] (.ok (contents.take (contents.length - N.tagLen)))
  | .handshake _ => .returns peer [] (.error .notTransportState)

/-- Modelled from the spec: `encrypt_server_channel` of the protocol crate, which is not among the sources.
Valid only in transport state (`NotTransportState` otherwise); the envelope's `length` is the number of
ciphertext bytes Noise writes and its `payload` the buffer holding them, as for a peer envelope, with the
`Blob` encoding the event loop demands of server envelopes. -/
def encryptServerChannel (server : ProtocolState H T) (payload : Bytes) (broadcast : Bool) :
    Except Error (SealedEnvelope × ProtocolState H T) :=
  match server with
  | .transport transport =>
    match N.transportWrite transport payload (zeros (payload.length + N.tagLen)) with
    | .error e => .error (.protocol e)
    | .ok (length, contents, transport') => .ok (⟨length, .blob, contents, broadcast⟩, .transport transport')
  | .handshake _ => .error .notTransportState

/-- Modelled from the spec: `decrypt_server_channel` of the protocol crate, which is not among the sources.
Valid only in transport state; it opens the first `length` bytes of the envelope as a peer envelope is opened
and returns them with the envelope's encoding. -/
def decryptServerChannel (server : ProtocolState H T) (envelope : SealedEnvelope) :
    Outcome (ProtocolState H T) (Encoding × Bytes) :=
  (decryptPeerChannel N server envelope).map fun contents => (envelope.encoding, contents)

variable {N}

/-! ### Sealing -/

/-- A sealed envelope holds exactly the ciphertext, `payload.length + tagLen` bytes of it. -/
theorem encryptPeerChannel_transport {t t' : T} {p c : Bytes} (h : N.writeTransport t p = .ok (c, t'))
    (k : Bytes) (encoding : Encoding) (broadcast : Bool) (sessionId : Option SessionId) :
    encryptPeerChannel N k (.transport t) p encoding broadcast sessionId =
      .ok (.opaqueMessage (.peerMessage k sessionId ⟨c.length, encoding, c, broadcast⟩), .transport t') := by
  simp [encryptPeerChannel, Noise.transportWrite_exact h]

/-- What sealing can do: it needs a transport state, which the library advances. -/
theorem encryptPeerChannel_ok {k p : Bytes} {peer peer' : ProtocolState H T} {encoding : Encoding}
    {broadcast : Bool} {sessionId : Option SessionId} {req : RequestMessage}
    (h : encryptPeerChannel N k peer p encoding broadcast sessionId = .ok (req, peer')) :
    ∃ t t' c, peer = .transport t ∧ peer' = .transport t' ∧ N.writeTransport t p = .ok (c, t') ∧
      req = .opaqueMessage (.peerMessage k sessionId ⟨c.length, encoding, c, broadcast⟩) := by
  cases peer with
  | handshake => cases h
  | transport t =>
    rcases hw : N.writeTransport t p with e | ⟨c, t'⟩
    · simp [encryptPeerChannel, Noise.transportWrite, Noise.throughBuffer, hw] at h
    · rw [encryptPeerChannel_transport hw] at h
      cases h
      exact ⟨t, t', c, rfl, rfl, hw, rfl⟩

theorem encryptServerChannel_ok {p : Bytes} {server server' : ProtocolState H T} {broadcast : Bool}
    {envelope : SealedEnvelope} (h : encryptServerChannel N server p broadcast = .ok (envelope, server')) :
    ∃ t t' c, server = .transport t ∧ server' = .transport t' ∧ N.writeTransport t p = .ok (c, t') ∧
      envelope = ⟨c.length, .blob, c, broadcast⟩ := by
  cases server with
  | handshake => cases h
  | transport t =>
    rcases hw : N.writeTransport t p with e | ⟨c, t'⟩
    · simp [encryptServerChannel, Noise.transportWrite, Noise.throughBuffer, hw] at h
    · simp only [encryptServerChannel, Noise.transportWrite_exact hw, Except.ok.injEq, Prod.mk.injEq] at h
      obtain ⟨rfl, rfl⟩ := h
      exact ⟨t, t', c, rfl, rfl, hw, rfl⟩

/-! ### Opening -/

/-- Opening reads nothing of an envelope but its first `length` bytes: when they open to `p`, the result is
`p`, whatever the encoding, the broadcast flag and the bytes past `length`. -/
theorem decryptPeerChannel_of_read {u u' : T} {envelope : SealedEnvelope} {p : Bytes}
    (hl : envelope.length ≤ envelope.payload.length)
    (h : N.readTransport u (envelope.payload.take envelope.length) = .ok (p, u')) :
    decryptPeerChannel N (.transport u) envelope = .returns (.transport u') [] (.ok p) := by
  have hlen : (envelope.payload.take envelope.length).length = envelope.length := by
    simpa using Nat.min_eq_left hl
  have hc := N.length_readTransport h
  simp [decryptPeerChannel, slice_eq_some hl, Noise.transportRead_exact h hlen, hc]

theorem decryptPeerChannel_of_read_error {u : T} {envelope : SealedEnvelope} {e : SnowError}
    (hl : envelope.length ≤ envelope.payload.length)
    (h : N.readTransport u (envelope.payload.take envelope.length) = .error e) :
    decryptPeerChannel N (.transport u) envelope = .returns (.transport u) [] (.error (.protocol e)) := by
  simp [decryptPeerChannel, slice_eq_some hl, Noise.transportRead, Noise.throughBuffer, h]

/-- Opening an envelope sealed on the paired state gives the plaintext back: the `payload.len() + TAGLEN`
buffer of the sender and the truncation to `length - TAGLEN` of the receiver cancel. -/
theorem decryptPeerChannel_sealed {t t' u : T} {p c : Bytes} (hp : N.Paired t u)
    (h : N.writeTransport t p = .ok (c, t')) (encoding : Encoding) (broadcast : Bool) :
    ∃ u', decryptPeerChannel N (.transport u) ⟨c.length, encoding, c, broadcast⟩ = .returns (.transport u') [] (.ok p) ∧
      N.Paired t' u' := by
  obtain ⟨u', hr, hp'⟩ := N.readTransport_of_paired hp h
  exact ⟨u', decryptPeerChannel_of_read (Nat.le_refl c.length) (by simpa using hr), hp'⟩

/-- Opening panics only past the end of the payload. -/
theorem decryptPeerChannel_not_panic {peer : ProtocolState H T} {envelope : SealedEnvelope}
    (hl : envelope.length ≤ envelope.payload.length) : ¬ (decryptPeerChannel N peer envelope).IsPanic := by
  cases peer with
  | handshake => simp [decryptPeerChannel]
  | transport u =>
    rcases hr : N.readTransport u (envelope.payload.take envelope.length) with e | ⟨p, u'⟩
    · simp [decryptPeerChannel_of_read_error hl hr]
    · simp [decryptPeerChannel_of_read hl hr]

/-- What opening can do: a handshake state refuses and stays; a transport state stays a transport state. -/
theorem decryptPeerChannel_returns {peer peer' : ProtocolState H T} {envelope : SealedEnvelope}
    {sent : List RequestMessage} {r : Except Error Bytes}
    (h : decryptPeerChannel N peer envelope = .returns peer' sent r) :
    sent = [] ∧ ((∃ hs, peer = .handshake hs ∧ peer' = peer ∧ r = .error .notTransportState) ∨
      ∃ u u', peer = .transport u ∧ peer' = .transport u') := by
  cases peer with
  | handshake hs =>
    cases h
    exact ⟨rfl, .inl ⟨hs, rfl, rfl, rfl⟩⟩
  | transport u =>
    simp only [decryptPeerChannel] at h
    split at h
    · cases h
    · split at h
      · cases h
        exact ⟨rfl, .inr ⟨u, u, rfl, rfl⟩⟩
      · split at h
        · cases h
        · cases h
          exact ⟨rfl, .inr ⟨u, _, rfl, rfl⟩⟩

theorem decryptServerChannel_returns {server server' : ProtocolState H T} {envelope : SealedEnvelope}
    {sent : List RequestMessage} {r : Except Error (Encoding × Bytes)}
    (h : decryptServerChannel N server envelope = .returns server' sent r) :
    sent = [] ∧ ((∃ hs, server = .handshake hs ∧ server' = server ∧ r = .error .notTransportState) ∨
      ∃ u u', server = .transport u ∧ server' = .transport u') := by
  unfold decryptServerChannel at h
  rcases hd : decryptPeerChannel N server envelope with ⟨s, sent', r'⟩ | msg <;> rw [hd] at h
  · simp only [Outcome.map_returns, Outcome.returns.injEq] at h
    obtain ⟨rfl, rfl, rfl⟩ := h
    obtain ⟨rfl, ⟨hs, rfl, rfl, rfl⟩ | hu⟩ := decryptPeerChannel_returns hd
    · exact ⟨rfl, .inl ⟨hs, rfl, rfl, rfl⟩⟩
    · exact ⟨rfl, .inr hu⟩
  · cases h

/-- An opened server envelope keeps the encoding its sender declared. -/
theorem decryptServerChannel_encoding {server server' : ProtocolState H T} {envelope : SealedEnvelope}
    {sent : List RequestMessage} {encoding : Encoding} {p : Bytes}
    (h : decryptServerChannel N server envelope = .returns server' sent (.ok (encoding, p))) :
    encoding = envelope.encoding := by
  unfold decryptServerChannel at h
  generalize decryptPeerChannel N server envelope = o at h
  rcases o with ⟨s, sent', _ | _⟩ | _ <;> cases h
  rfl

end RelayClient
