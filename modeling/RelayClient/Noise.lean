import RelayClient.Protocol

/-!
# The Noise library

The client drives every channel through the Noise library (`snow`): a builder makes a handshake state, the
handshake states exchange messages and turn into transport states, and a transport state seals and opens
messages with a nonce of its own per direction. `Noise H T` bundles these operations over abstract handshake
states `H` and transport states `T` together with the contract the library gives for them:

* a transport message is its plaintext followed by a tag of `tagLen` bytes (`TAGLEN`), both ways, and sealing
  succeeds on every payload whose message, tag included, fits in `maxMsgLen` bytes (`MAXMSGLEN`);
* a completed handshake leaves two transport states `Paired` in both directions, and what one side of a
  paired direction seals the other side opens, keeping the direction paired;
* sealing does not disturb the receiving direction of the same state, and opening not the sending one.

The library's buffer discipline (`write_message(payload, &mut buf)` writes at the front of the caller's
buffer, and refuses a buffer that is too short) is `writeInto`, shared by the four buffer-level operations.

`reference` is a small executable implementation of the contract, used to run the model on concrete inputs.
-/

namespace RelayClient

/-- `snow::constants::MAXMSGLEN`: the longest message, tag included, the library seals or opens. -/
def maxMsgLen : Nat := 65535

/-- The operations of the Noise library the client calls, with the contract they satisfy. The transport nonce
is unbounded here: the library's refusal to seal after `2^64 - 1` messages in one direction is left out. -/
structure Noise (H T : Type) where
  /-- `TAGLEN`. -/
  tagLen : Nat
  /-- `Builder::new(PATTERN).local_private_key(..).remote_public_key(..).build_initiator()`. -/
  buildInitiator : Bytes → Bytes → Except SnowError H
  /-- `Builder::new(PATTERN).local_private_key(..).remote_public_key(..).build_responder()`. -/
  buildResponder : Bytes → Bytes → Except SnowError H
  /-- The handshake message a handshake state writes for a payload. -/
  writeHandshake : H → Bytes → Except SnowError (Bytes × H)
  /-- The payload a handshake state reads from a message. -/
  readHandshake : H → Bytes → Except SnowError (Bytes × H)
  /-- `HandshakeState::into_transport_mode`. -/
  intoTransportMode : H → Except SnowError T
  /-- The ciphertext a transport state seals a plaintext into. -/
  writeTransport : T → Bytes → Except SnowError (Bytes × T)
  /-- The plaintext a transport state opens a ciphertext to. -/
  readTransport : T → Bytes → Except SnowError (Bytes × T)
  /-- What the first state seals, the second opens. -/
  Paired : T → T → Prop
  writeTransport_ok : ∀ (t : T) (p : Bytes), p.length + tagLen ≤ maxMsgLen →
    ∃ c t', writeTransport t p = .ok (c, t')
  length_writeTransport : ∀ {t t' : T} {p c : Bytes},
    writeTransport t p = .ok (c, t') → c.length = p.length + tagLen
  length_readTransport : ∀ {t t' : T} {c p : Bytes},
    readTransport t c = .ok (p, t') → c.length = p.length + tagLen
  readTransport_of_paired : ∀ {t t' u : T} {p c : Bytes}, Paired t u →
    writeTransport t p = .ok (c, t') → ∃ u', readTransport u c = .ok (p, u') ∧ Paired t' u'
  paired_writeTransport : ∀ {t t' u : T} {p c : Bytes}, Paired u t →
    writeTransport t p = .ok (c, t') → Paired u t'
  paired_readTransport : ∀ {t t' u : T} {p c : Bytes}, Paired t u →
    readTransport t c = .ok (p, t') → Paired t' u
  paired_of_handshake : ∀ {hi hi₁ hi₂ hr hr₁ hr₂ : H} {ti tr : T} {m₁ m₂ x y : Bytes},
    writeHandshake hi [] = .ok (m₁, hi₁) → readHandshake hr m₁ = .ok (x, hr₁) →
    writeHandshake hr₁ [] = .ok (m₂, hr₂) → intoTransportMode hr₂ = .ok tr →
    readHandshake hi₁ m₂ = .ok (y, hi₂) → intoTransportMode hi₂ = .ok ti →
    Paired ti tr ∧ Paired tr ti

/-- The library writes `out` at the front of the caller's buffer `buf`, and refuses a buffer too short. -/
def writeInto (buf out : Bytes) : Except SnowError Bytes :=
  if out.length ≤ buf.length then .ok (out ++ buf.drop out.length) else .error .input

theorem writeInto_of_le {buf out : Bytes} (h : out.length ≤ buf.length) :
    writeInto buf out = .ok (out ++ buf.drop out.length) :=
  if_pos h

namespace Noise

variable {H T : Type} (N : Noise H T)

/-- `write_message(input, &mut buf)` and `read_message(input, &mut buf)` of a handshake or a transport state:
run the library's operation and write its output at the front of the caller's buffer; the length written, the
buffer and the new state. -/
def throughBuffer {S : Type} (op : S → Bytes → Except SnowError (Bytes × S)) (s : S) (input buf : Bytes) :
    Except SnowError (Nat × Bytes × S) :=
  match op s input with
  | .error e => .error e
  | .ok (out, s') =>
    match writeInto buf out with
    | .error e => .error e
    | .ok buf' => .ok (out.length, buf', s')

/-- `HandshakeState::write_message(payload, &mut buf)`. -/
def handshakeWrite : H → Bytes → Bytes → Except SnowError (Nat × Bytes × H) := throughBuffer N.writeHandshake

/-- `HandshakeState::read_message(message, &mut buf)`. -/
def handshakeRead : H → Bytes → Bytes → Except SnowError (Nat × Bytes × H) := throughBuffer N.readHandshake

/-- `TransportState::write_message(payload, &mut buf)`. -/
def transportWrite : T → Bytes → Bytes → Except SnowError (Nat × Bytes × T) := throughBuffer N.writeTransport

/-- `TransportState::read_message(message, &mut buf)`. -/
def transportRead : T → Bytes → Bytes → Except SnowError (Nat × Bytes × T) := throughBuffer N.readTransport

variable {S : Type} {op : S → Bytes → Except SnowError (Bytes × S)} {s s' : S} {input buf out : Bytes}

/-- An output that fits is written at the front of the buffer. -/
theorem throughBuffer_of_le (h : op s input = .ok (out, s')) (hl : out.length ≤ buf.length) :
    throughBuffer op s input buf = .ok (out.length, out ++ buf.drop out.length, s') := by
  simp [throughBuffer, h, writeInto_of_le hl]

/-- A buffered operation succeeds only by the bare operation, with its output at the front of the buffer. -/
theorem throughBuffer_ok {n : Nat} {buf' : Bytes} (h : throughBuffer op s input buf = .ok (n, buf', s')) :
    ∃ out, op s input = .ok (out, s') ∧ n = out.length ∧ buf' = out ++ buf.drop out.length ∧
      out.length ≤ buf.length := by
  unfold throughBuffer at h
  rcases hr : op s input with e | ⟨out, s₁⟩ <;> rw [hr] at h
  · cases h
  · by_cases hl : out.length ≤ buf.length
    · simp only [writeInto, if_pos hl, Except.ok.injEq, Prod.mk.injEq] at h
      obtain ⟨rfl, rfl, rfl⟩ := h
      exact ⟨out, rfl, rfl, rfl, hl⟩
    · simp [writeInto, if_neg hl] at h

variable {N}

/-- Sealing into a buffer of exactly `payload.length + tagLen` bytes fills it with the ciphertext. -/
theorem transportWrite_exact {t t' : T} {p c : Bytes} (h : N.writeTransport t p = .ok (c, t')) :
    N.transportWrite t p (zeros (p.length + N.tagLen)) = .ok (c.length, c, t') := by
  have hc := N.length_writeTransport h
  rw [transportWrite, throughBuffer_of_le h (by simp [hc]), List.drop_eq_nil_of_le (by simp [hc]),
    List.append_nil]

/-- Opening into a buffer of the ciphertext's length puts the plaintext at its front. -/
theorem transportRead_exact {t t' : T} {p c : Bytes} {n : Nat} (h : N.readTransport t c = .ok (p, t'))
    (hn : c.length = n) : N.transportRead t c (zeros n) = .ok (p.length, p ++ zeros N.tagLen, t') := by
  have hc := N.length_readTransport h
  subst hn
  rw [transportRead, throughBuffer_of_le h (by simp [hc])]
  simp [zeros, hc, List.drop_replicate, Nat.add_sub_cancel_left]

end Noise

/-! ### A reference implementation -/

namespace Noise.Reference

/-- A handshake state: the role, the local key, the key expected of the other side, messages passed. -/
structure Handshake where
  initiator : Bool
  localKey : Bytes
  remoteKey : Bytes
  step : Nat
  deriving DecidableEq, Repr

/-- A transport state: a key and a nonce for each direction. -/
structure Transport where
  sendKey : Bytes
  sendNonce : Nat
  recvKey : Bytes
  recvNonce : Nat
  deriving DecidableEq, Repr

/-- The reference tag: sixteen copies of a checksum of the key, the nonce and the plaintext. -/
def tag (key : Bytes) (nonce : Nat) (p : Bytes) : Bytes :=
  List.replicate 16 (UInt8.ofNat ((key ++ p).foldl (fun a b => a + b.toNat) nonce))

/-- The key of one direction of the channel between initiator key `i` and responder key `r`. -/
def channelKey (i r : Bytes) (toResponder : Bool) : Bytes := i ++ r ++ [if toResponder then 0 else 1]

/-- The step at which a side writes (or reads): the initiator writes first, the responder reads first. -/
def turn (h : Handshake) (writing : Bool) : Nat := if h.initiator = writing then 0 else 1

/-- Message one is the initiator's key, message two the responder's; a side reads only the key it expects. -/
def writeHandshake (h : Handshake) (_ : Bytes) : Except SnowError (Bytes × Handshake) :=
  if h.step = turn h true then .ok (h.localKey, { h with step := h.step + 1 })
  else .error .state

def readHandshake (h : Handshake) (msg : Bytes) : Except SnowError (Bytes × Handshake) :=
  if h.step = turn h false then
    if msg = h.remoteKey then .ok ([], { h with step := h.step + 1 }) else .error .decrypt
  else .error .state

def intoTransportMode (h : Handshake) : Except SnowError Transport :=
  if h.step = 2 then
    let i := if h.initiator then h.localKey else h.remoteKey
    let r := if h.initiator then h.remoteKey else h.localKey
    .ok ⟨channelKey i r h.initiator, 0, channelKey i r (!h.initiator), 0⟩
  else .error .state

/-- A payload whose message would pass `MAXMSGLEN` is refused as bad input. -/
def writeTransport (t : Transport) (p : Bytes) : Except SnowError (Bytes × Transport) :=
  if p.length + 16 ≤ maxMsgLen then .ok (p ++ tag t.sendKey t.sendNonce p, { t with sendNonce := t.sendNonce + 1 })
  else .error .input

/-- A message past `MAXMSGLEN` is refused as bad input; one too short to hold a tag, or whose tag is wrong, fails
to decrypt. -/
def readTransport (t : Transport) (c : Bytes) : Except SnowError (Bytes × Transport) :=
  if c.length ≤ maxMsgLen then
    if 16 ≤ c.length ∧ c.drop (c.length - 16) = tag t.recvKey t.recvNonce (c.take (c.length - 16)) then
      .ok (c.take (c.length - 16), { t with recvNonce := t.recvNonce + 1 })
    else .error .decrypt
  else .error .input

/-- The sending direction of `t` is the receiving direction of `u`, at the same nonce. -/
def Paired (t u : Transport) : Prop := t.sendKey = u.recvKey ∧ t.sendNonce = u.recvNonce

private theorem writeTransport_eq {t t' : Transport} {p c : Bytes} (h : writeTransport t p = .ok (c, t')) :
    p.length + 16 ≤ maxMsgLen ∧ c = p ++ tag t.sendKey t.sendNonce p ∧
      t' = { t with sendNonce := t.sendNonce + 1 } := by
  unfold writeTransport at h
  split at h
  · cases h; exact ⟨by assumption, rfl, rfl⟩
  · cases h

private theorem readTransport_eq {t t' : Transport} {c p : Bytes} (h : readTransport t c = .ok (p, t')) :
    16 ≤ c.length ∧ p = c.take (c.length - 16) ∧ t' = { t with recvNonce := t.recvNonce + 1 } := by
  unfold readTransport at h
  split at h
  · split at h
    · cases h; exact ⟨(by assumption : _ ∧ _).1, rfl, rfl⟩
    · cases h
  · cases h

private theorem length_tag (key : Bytes) (nonce : Nat) (p : Bytes) : (tag key nonce p).length = 16 :=
  List.length_replicate ..

theorem readTransport_of_paired {t t' u : Transport} {p c : Bytes} (hp : Paired t u)
    (h : writeTransport t p = .ok (c, t')) :
    ∃ u', readTransport u c = .ok (p, u') ∧ Paired t' u' := by
  obtain ⟨hlen, rfl, rfl⟩ := writeTransport_eq h
  have hl : (p ++ tag t.sendKey t.sendNonce p).length - 16 = p.length := by simp [length_tag]
  refine ⟨{ u with recvNonce := u.recvNonce + 1 }, ?_, ⟨hp.1, by simp [hp.2]⟩⟩
  simp only [readTransport, hl, List.take_left', List.drop_left', hp.1, hp.2]
  simp [length_tag, hlen]

private theorem handshake_eq {h h' : Handshake} {m p : Bytes} (hw : writeHandshake h p = .ok (m, h')) :
    h.step = turn h true ∧ m = h.localKey ∧ h' = { h with step := h.step + 1 } := by
  unfold writeHandshake at hw
  split_ifs at hw with hs
  cases hw
  exact ⟨hs, rfl, rfl⟩

private theorem readHandshake_eq {h h' : Handshake} {m p : Bytes} (hr : readHandshake h m = .ok (p, h')) :
    h.step = turn h false ∧ m = h.remoteKey ∧ h' = { h with step := h.step + 1 } := by
  unfold readHandshake at hr
  split_ifs at hr with hs hm
  cases hr
  exact ⟨hs, hm, rfl⟩

theorem paired_of_handshake {hi hi₁ hi₂ hr hr₁ hr₂ : Handshake} {ti tr : Transport} {m₁ m₂ x y : Bytes}
    (h₁ : writeHandshake hi [] = .ok (m₁, hi₁)) (h₂ : readHandshake hr m₁ = .ok (x, hr₁))
    (h₃ : writeHandshake hr₁ [] = .ok (m₂, hr₂)) (h₄ : intoTransportMode hr₂ = .ok tr)
    (h₅ : readHandshake hi₁ m₂ = .ok (y, hi₂)) (h₆ : intoTransportMode hi₂ = .ok ti) :
    Paired ti tr ∧ Paired tr ti := by
  obtain ⟨si, rfl, rfl⟩ := handshake_eq h₁
  obtain ⟨sr, hm₁, rfl⟩ := readHandshake_eq h₂
  obtain ⟨sr₁, rfl, rfl⟩ := handshake_eq h₃
  obtain ⟨si₁, hm₂, rfl⟩ := readHandshake_eq h₅
  cases hi with | mk ii il ir is => cases hr with | mk ri rl rr rs =>
  cases ii <;> cases ri <;> simp_all [turn, intoTransportMode, Paired]
  subst_vars
  simp

end Noise.Reference

/-- The reference implementation of the Noise contract. -/
def Noise.reference : Noise Noise.Reference.Handshake Noise.Reference.Transport where
  tagLen := 16
  buildInitiator k r := .ok ⟨true, k, r, 0⟩
  buildResponder k r := .ok ⟨false, k, r, 0⟩
  writeHandshake := Reference.writeHandshake
  readHandshake := Reference.readHandshake
  intoTransportMode := Reference.intoTransportMode
  writeTransport := Reference.writeTransport
  readTransport := Reference.readTransport
  Paired := Reference.Paired
  writeTransport_ok t p h := ⟨_, _, if_pos h⟩
  length_writeTransport h := by obtain ⟨-, rfl, -⟩ := Reference.writeTransport_eq h; simp [Reference.length_tag]
  length_readTransport h := by obtain ⟨h16, rfl, -⟩ := Reference.readTransport_eq h; simp; omega
  readTransport_of_paired := Reference.readTransport_of_paired
  paired_writeTransport hp h := by obtain ⟨-, -, rfl⟩ := Reference.writeTransport_eq h; exact hp
  paired_readTransport hp h := by obtain ⟨-, -, rfl⟩ := Reference.readTransport_eq h; exact hp
  paired_of_handshake := Reference.paired_of_handshake

end RelayClient
