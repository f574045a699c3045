import Mathlib.Logic.Function.Basic

/-!
# The wire types of the relay protocol

The values the native client exchanges with the relay server and hands to its consumer: sealed envelopes,
handshake frames, the `RequestMessage` / `ResponseMessage` sums split into a transparent (handshakes and the
server's error frames) and an opaque (encrypted) half, the inner `ServerMessage`, the consumer's `Event`, and the
client's `Error`. Every message sum keeps the protocol crate's `Noop` variant: the client never builds one, but
`handle_incoming_message` matches on every value of `ResponseMessage`.

Rust's fixed-width lengths (`usize`) are natural numbers here: no length of the model is near `2^64`.
Besides the types, the file fixes two pieces of Rust semantics used by every handler: slicing `&buf[..len]`
(`slice`, which panics past the end) and a call's result (`Outcome`: it returns a `Result` and leaves the
shared state, or it panics).
-/

namespace RelayClient

/-- `Vec<u8>`. -/
abbrev Bytes := List UInt8

/-- `SessionId`: an opaque identifier minted by the server, compared by value. -/
abbrev SessionId := Nat

/-- `Encoding`: how the plaintext of a sealed envelope is to be read. -/
inductive Encoding
  | noop
  | blob
  | json
  deriving DecidableEq, Repr

/-- `SealedEnvelope`: `length` ciphertext bytes at the front of the over-allocated `payload`. -/
structure SealedEnvelope where
  length : Nat
  encoding : Encoding
  payload : Bytes
  broadcast : Bool
  deriving DecidableEq, Repr

/-- `HandshakeMessage`: a Noise handshake message, `len` significant bytes at the front of a buffer. Like each
message sum of the protocol crate, it has a `Noop` variant, the default value its decoder starts from. -/
inductive HandshakeMessage
  | noop
  | initiator (len : Nat) (buf : Bytes)
  | responder (len : Nat) (buf : Bytes)
  deriving DecidableEq, Repr

/-- `TransparentMessage`: the unencrypted framing of handshakes, and of the errors the server reports with an
HTTP status code. -/
inductive TransparentMessage
  | noop
  | error (code : Nat) (message : String)
  | serverHandshake (message : HandshakeMessage)
  | peerHandshake (publicKey : Bytes) (message : HandshakeMessage)
  deriving DecidableEq, Repr

/-- `OpaqueMessage`: envelopes sealed on the server channel or on a peer channel. -/
inductive OpaqueMessage
  | noop
  | serverMessage (envelope : SealedEnvelope)
  | peerMessage (publicKey : Bytes) (sessionId : Option SessionId) (envelope : SealedEnvelope)
  deriving DecidableEq, Repr

/-- `RequestMessage`: what the client writes to the server. -/
inductive RequestMessage
  | noop
  | transparent (message : TransparentMessage)
  | opaqueMessage (message : OpaqueMessage)
  deriving DecidableEq, Repr

/-- `ResponseMessage`: what the client reads from the server. -/
inductive ResponseMessage
  | noop
  | transparent (message : TransparentMessage)
  | opaqueMessage (message : OpaqueMessage)
  deriving DecidableEq, Repr

/-- `SessionRequest`: the participants of a session to create. -/
structure SessionRequest where
  participantKeys : List Bytes
  deriving DecidableEq, Repr

/-- `SessionState`: the server's view of a session, passed through to the consumer. -/
structure SessionState where
  sessionId : SessionId
  allParticipants : List Bytes
  deriving DecidableEq, Repr

/-- `ServerMessage`: the plaintext of the server channel once it is in transport mode. -/
inductive ServerMessage
  | error (code : Nat) (message : String)
  | newSession (request : SessionRequest)
  | sessionCreated (response : SessionState)
  | sessionReadyNotify (sessionId : SessionId)
  | sessionReady (response : SessionState)
  | sessionConnection (sessionId : SessionId) (peerKey : Bytes)
  | sessionActiveNotify (sessionId : SessionId)
  | sessionActive (response : SessionState)
  | closeSession (sessionId : SessionId)
  | sessionFinished (sessionId : SessionId)
  deriving DecidableEq, Repr

/-- `JsonMessage`: a JSON payload from a peer, kept as raw bytes. -/
structure JsonMessage where
  contents : Bytes
  deriving DecidableEq, Repr

/-- `Event`: what the event loop yields to its consumer. -/
inductive Event
  | serverConnected (serverKey : Bytes)
  | peerConnected (peerKey : Bytes)
  | sessionCreated (response : SessionState)
  | sessionReady (response : SessionState)
  | sessionActive (response : SessionState)
  | sessionFinished (sessionId : SessionId)
  | binaryMessage (peerKey : Bytes) (message : Bytes) (sessionId : Option SessionId)
  | jsonMessage (peerKey : Bytes) (message : JsonMessage) (sessionId : Option SessionId)
  deriving DecidableEq, Repr

/-- A channel of the client: the server channel, or the channel to a peer key. -/
inductive Channel
  | server
  | peer (key : Bytes)
  deriving DecidableEq, Repr

/-- The channel whose connection an event announces. -/
def Event.announces : Event → Option Channel
  | .serverConnected _ => some .server
  | .peerConnected k => some (.peer k)
  | _ => none

/-- The channel an event is a message of. -/
def Event.channel : Event → Option Channel
  | .sessionCreated _ | .sessionReady _ | .sessionActive _ | .sessionFinished _ => some .server
  | .binaryMessage k _ _ | .jsonMessage k _ _ => some (.peer k)
  | _ => none

/-- The errors of the Noise library (`snow::Error`) that the client passes on. -/
inductive SnowError
  | input
  | decrypt
  | state
  deriving DecidableEq, Repr

/-- The client's `Error`, restricted to the variants the modelled functions produce. -/
inductive Error
  | httpError (status : Nat) (text : String)
  | notHandshakeState
  | notTransportState
  | peerAlreadyExists
  | peerAlreadyExistsMaybeRace
  | peerNotFound (key : String)
  | serverError (code : Nat) (message : String)
  | protocol (error : SnowError)
  | codec
  | json
  deriving DecidableEq, Repr

/-- `ProtocolState`: a channel's Noise state, in handshake or in transport mode. -/
inductive ProtocolState (H T : Type)
  | handshake (state : H)
  | transport (state : T)
  deriving DecidableEq, Repr

namespace ProtocolState

variable {H T : Type}

/-- Whether a channel slot holds a channel in transport mode. -/
def inTransport : Option (ProtocolState H T) → Bool
  | some (transport _) => true
  | _ => false

/-- Whether a channel slot holds a channel in handshake mode. -/
def inHandshake : Option (ProtocolState H T) → Bool
  | some (handshake _) => true
  | _ => false

@[simp] theorem inTransport_transport (t : T) : inTransport (some (transport t : ProtocolState H T)) = true := rfl
@[simp] theorem inTransport_handshake (h : H) : inTransport (some (handshake h : ProtocolState H T)) = false := rfl
@[simp] theorem inTransport_none : inTransport (none : Option (ProtocolState H T)) = false := rfl
@[simp] theorem inHandshake_transport (t : T) : inHandshake (some (transport t : ProtocolState H T)) = false := rfl
@[simp] theorem inHandshake_handshake (h : H) : inHandshake (some (handshake h : ProtocolState H T)) = true := rfl
@[simp] theorem inHandshake_none : inHandshake (none : Option (ProtocolState H T)) = false := rfl

end ProtocolState

/-- The protocol crate's `encode` and `decode` at `ServerMessage`, which are not among the sources. -/
structure Codec where
  encode : ServerMessage → Except Error Bytes
  decode : Bytes → Except Error ServerMessage

/-- `hex::encode`: two lowercase hex digits per byte. -/
def hexEncode (bytes : Bytes) : String :=
  String.join (bytes.map fun b => String.mk [Nat.digitChar (b.toNat / 16), Nat.digitChar (b.toNat % 16)])

/-! ### Buffers -/

/-- `vec![0u8; n]`. -/
def zeros (n : Nat) : Bytes := List.replicate n 0

/-- `&buf[..len]`: the first `len` bytes, or nothing when `len` is past the end (Rust panics there). -/
def slice (buf : Bytes) (len : Nat) : Option Bytes :=
  if len ≤ buf.length then some (buf.take len) else none

/-- The message of the panic of `&buf[..len]` past the end of `buf`. -/
def sliceEndPanic (len length : Nat) : String :=
  "range end index " ++ toString len ++ " out of range for slice of length " ++ toString length

/-- The message of `unreachable!()`. -/
def unreachableCode : String := "internal error: entered unreachable code"

/-- The message of a `usize` subtraction below zero. -/
def subtractOverflow : String := "attempt to subtract with overflow"

@[simp] theorem length_zeros (n : Nat) : (zeros n).length = n := List.length_replicate n 0

theorem slice_eq_some {buf : Bytes} {len : Nat} (h : len ≤ buf.length) : slice buf len = some (buf.take len) :=
  if_pos h

theorem slice_eq_none {buf : Bytes} {len : Nat} (h : buf.length < len) : slice buf len = none :=
  if_neg (Nat.not_le.2 h)

theorem slice_eq_some_iff {buf m : Bytes} {len : Nat} :
    slice buf len = some m ↔ len ≤ buf.length ∧ m = buf.take len := by
  unfold slice
  split_ifs with h <;> simp [h, eq_comm]

/-- A buffer holding a message at its front gives the message back. -/
@[simp] theorem slice_append (msg rest : Bytes) : slice (msg ++ rest) msg.length = some msg := by
  simp [slice]

/-! ### Results of calls -/

/-- What a call does: it returns `r`, leaving the shared state `s` and having sent `sent` on the outbound
queue, in order; or it panics. -/
inductive Outcome (σ α : Type) where
  | returns (s : σ) (sent : List RequestMessage) (r : Except Error α)
  | panics (msg : String)

namespace Outcome

variable {σ α β : Type}

/-- Apply `f` to the value a call returns. -/
def map (f : α → β) : Outcome σ α → Outcome σ β
  | returns s sent r => returns s sent (r.map f)
  | panics msg => panics msg

/-- The call `o`, made after the requests `sent` were sent. -/
def after (sent : List RequestMessage) : Outcome σ α → Outcome σ α
  | returns s sent' r => returns s (sent ++ sent') r
  | panics msg => panics msg

/-- Whether the call panics. -/
def IsPanic : Outcome σ α → Prop
  | returns .. => False
  | panics _ => True

@[simp] theorem map_returns (f : α → β) (s : σ) (sent : List RequestMessage) (r : Except Error α) :
    (returns s sent r).map f = returns s sent (r.map f) := rfl

@[simp] theorem map_panics (f : α → β) (msg : String) : (panics msg : Outcome σ α).map f = panics msg := rfl

@[simp] theorem after_returns (sent sent' : List RequestMessage) (s : σ) (r : Except Error α) :
    (returns s sent' r).after sent = returns s (sent ++ sent') r := rfl

@[simp] theorem after_panics (sent : List RequestMessage) (msg : String) :
    (panics msg : Outcome σ α).after sent = panics msg := rfl

@[simp] theorem not_isPanic_returns (s : σ) (sent : List RequestMessage) (r : Except Error α) :
    ¬ (returns s sent r).IsPanic := id

@[simp] theorem isPanic_panics (msg : String) : (panics msg : Outcome σ α).IsPanic := trivial

theorem map_eq_returns {f : α → β} {o : Outcome σ α} {s : σ} {sent : List RequestMessage} {r : Except Error β}
    (h : o.map f = returns s sent r) : ∃ r', o = returns s sent r' ∧ r = r'.map f := by
  cases o with
  | returns => cases h; exact ⟨_, rfl, rfl⟩
  | panics => cases h

theorem IsPanic.of_eq {o : Outcome σ α} {msg : String} (h : o = panics msg) : o.IsPanic := h ▸ trivial

theorem isPanic_map {f : α → β} {o : Outcome σ α} : (o.map f).IsPanic ↔ o.IsPanic := by
  cases o <;> simp

end Outcome

end RelayClient
