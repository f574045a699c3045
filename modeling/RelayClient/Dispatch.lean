import RelayClient.Run

/-!
# When dispatch panics

`handle_incoming_message` aborts the event loop through its catch-all `panic!("unhandled message")`, which takes
every message it has no arm for (`EventLoop.hasArm`): the `Noop` variants, a server handshake frame carrying an
initiator or a `Noop` message, a peer handshake frame carrying a `Noop` message, and the server's `Error` frames,
whose arm (returning `Err(HttpError(code, message))`) is commented out. It aborts on a server envelope whose
plaintext is not `Blob`-encoded (`panic!("unexpected encoding ...")`), and through slips: slicing `&buf[..len]`
and `&payload[..length]` with lengths the remote chose, `unreachable!()` on a `Noop` peer envelope (the encoding
travels outside the ciphertext, so the relay can set it on any sealed message), and `unreachable!()` on an empty
server slot (which `server_slot_emptied` reaches).

* `handleIncomingMessage_panics`: from any state, every message without an arm aborts the loop, error frames
  included; once the slips are ruled out of the input (lengths within their buffers, no `Noop` peer envelope, the
  server slot present), these and a server envelope that is not `Blob`-encoded are the only panics. The
  subtraction `contents.len() - TAGLEN` never underflows: what Noise opens is `TAGLEN` bytes shorter than the
  ciphertext.
-/

namespace RelayClient

variable {H T : Type} {N : Noise H T} {codec : Codec} {opts : ClientOptions}

namespace EventLoop

/-! ### The complete list of panics -/

/-- A message outside the slips of the handlers: every handshake `len` within its buffer, every envelope
`length` within its payload, and no `Noop` peer envelope. -/
def InBounds : ResponseMessage → Prop
  | .transparent (.serverHandshake (.responder len buf)) => len ≤ buf.length
  | .transparent (.peerHandshake _ (.initiator len buf)) => len ≤ buf.length
  | .transparent (.peerHandshake _ (.responder len buf)) => len ≤ buf.length
  | .opaqueMessage (.serverMessage envelope) => envelope.length ≤ envelope.payload.length
  | .opaqueMessage (.peerMessage _ _ envelope) =>
    envelope.length ≤ envelope.payload.length ∧ envelope.encoding ≠ .noop
  | _ => True

private theorem serverHandshake_not_panic {c : Client H T} {len : Nat} {buf : Bytes} (hl : len ≤ buf.length) :
    ¬ (serverHandshake N opts c len buf).IsPanic := by
  unfold serverHandshake
  split
  · simp only [slice_eq_some hl]
    split <;> simp
  · simp

theorem peerHandshakeResponder_not_panic {c : Client H T} {k : Bytes} {len : Nat} {buf : Bytes}
    (hl : len ≤ buf.length) : ¬ (peerHandshakeResponder N opts c k len buf).IsPanic := by
  unfold peerHandshakeResponder
  split
  · simp
  · split
    · simp
    · simp only [slice_eq_some hl]
      split <;> simp

theorem peerHandshakeAck_not_panic {c : Client H T} {k : Bytes} {len : Nat} {buf : Bytes}
    (hl : len ≤ buf.length) : ¬ (peerHandshakeAck N c k len buf).IsPanic := by
  unfold peerHandshakeAck
  split
  · simp
  · split
    · simp only [slice_eq_some hl]
      split <;> simp
    · simp

theorem handleRelayedMessage_not_panic {c : Client H T} {k : Bytes} {envelope : SealedEnvelope}
    {sessionId : Option SessionId} (hl : envelope.length ≤ envelope.payload.length)
    (hn : envelope.encoding ≠ .noop) : ¬ (handleRelayedMessage N c k envelope sessionId).IsPanic := by
  unfold handleRelayedMessage
  split
  · rename_i peer _
    have hd : ¬ (decryptPeerChannel N peer envelope).IsPanic := decryptPeerChannel_not_panic hl
    split
    · simp_all
    · simp
    · split <;> simp_all
  · simp

/-- With its slot present, a server envelope within bounds panics only when its encoding is not `Blob`. -/
private theorem handleServerMessage_panics {c : Client H T} {envelope : SealedEnvelope} {msg : String}
    (hs : c.server.isSome) (hl : envelope.length ≤ envelope.payload.length)
    (h : handleServerMessage N codec c envelope = .panics msg) :
    envelope.encoding ≠ .blob ∧ msg = "unexpected encoding received from server" := by
  unfold handleServerMessage at h
  split at h
  · rename_i server _
    have hd : ¬ (decryptServerChannel N server envelope).IsPanic := by
      rw [decryptServerChannel, Outcome.isPanic_map]
      exact decryptPeerChannel_not_panic hl
    split at h
    · simp_all
    · cases h
    · rename_i he
      split at h
      · split at h <;> cases h
      · cases h
        exact ⟨decryptServerChannel_encoding he ▸ by assumption, rfl⟩
  · simp_all

/-- Dispatch aborts on every message it has no arm for, from any state, the server's error frames included. With
the server slot present and the slips ruled out of the message, the only other panic is on a server envelope
whose encoding is not `Blob`. -/
theorem handleIncomingMessage_panics (c : Client H T) :
    (∀ m, hasArm m = false → handleIncomingMessage N codec opts c m = .panics "unhandled message") ∧
      (c.server.isSome → ∀ m msg, InBounds m → handleIncomingMessage N codec opts c m = .panics msg →
        (hasArm m = false ∧ msg = "unhandled message") ∨
          ∃ envelope, m = .opaqueMessage (.serverMessage envelope) ∧ envelope.encoding ≠ .blob ∧
            msg = "unexpected encoding received from server") := by
  refine ⟨fun m => handleIncomingMessage_unhandled c, fun hs m msg hm h => ?_⟩
  rcases m with _ | (_ | _ | (_ | _ | ⟨len, buf⟩) | ⟨k, _ | ⟨len, buf⟩ | ⟨len, buf⟩⟩) |
    (_ | env | ⟨k, sid, env⟩)
  -- the seven shapes without an arm
  all_goals first
    | exact .inl ⟨rfl, by cases h; rfl⟩
    | skip
  · exact absurd (Outcome.isPanic_map.1 (.of_eq h)) (serverHandshake_not_panic hm)
  · exact absurd (.of_eq h) (peerHandshakeResponder_not_panic hm)
  · exact absurd (Outcome.isPanic_map.1 (.of_eq h)) (peerHandshakeAck_not_panic hm)
  · obtain ⟨he, rfl⟩ := handleServerMessage_panics hs hm h
    exact .inr ⟨env, rfl, he, rfl⟩
  · exact absurd (Outcome.isPanic_map.1 (.of_eq h)) (handleRelayedMessage_not_panic hm.1 hm.2)

/-- A client just constructed aborts on an error frame of the server. -/
theorem dispatch_error_frame_reference :
    Reachable Noise.reference Codec.silent (referenceOptions 1) (referenceStart 1) ∧
      handleIncomingMessage Noise.reference Codec.silent (referenceOptions 1) (referenceStart 1).client
        (.transparent (.error 400 "bad")) = .panics "unhandled message" ∧
      ((hasArm (.transparent (.error 400 "bad")) = false ∧ "unhandled message" = "unhandled message") ∨
        ∃ envelope, ResponseMessage.transparent (.error 400 "bad") = .opaqueMessage (.serverMessage envelope) ∧
          envelope.encoding ≠ .blob ∧ "unhandled message" = "unexpected encoding received from server") :=
  ⟨reachable_referenceRun 1 [] rfl,
    (@handleIncomingMessage_panics _ _ Noise.reference Codec.silent (referenceOptions 1) (referenceStart 1).client).1
      _ rfl,
    (@handleIncomingMessage_panics _ _ Noise.reference Codec.silent (referenceOptions 1) (referenceStart 1).client).2
      rfl _ _ trivial rfl⟩

/-- Outside `InBounds` the slips abort: a server handshake reply whose `len` runs past its buffer. -/
example : handleIncomingMessage Noise.reference Codec.silent (referenceOptions 1) (referenceStart 1).client
    (.transparent (.serverHandshake (.responder 2 [9]))) = .panics (sliceEndPanic 2 1) := rfl

set_option maxRecDepth 20000 in
/-- So does an envelope an open peer sealed, relabelled `Noop` on the way. -/
example : handleIncomingMessage Noise.reference Codec.silent (referenceOptions 2)
    (referenceRun 2 [.dispatch (.transparent (.peerHandshake [1] (.initiator 1 [1])))]).client
    (.opaqueMessage (.peerMessage [1] none ⟨17, .noop, [7] ++ List.replicate 16 10, false⟩)) =
      .panics unreachableCode := by
  rfl

end EventLoop

end RelayClient
