import RelayClient.Run

/-!
# Two clients through the relay

Two clients `A` and `B`, known to each other by the keys `kA` and `kB`, talk through the relay server, which
forwards a peer request to the client whose key it names, carrying the sender's key in its place (identity
routing, `forward`). The server is not among the sources; it enters only through what it forwards.

* `peer_delivery`: once `A.connect_peer(kB)`, `B`'s answer and `A`'s completion have yielded `PeerConnected` on
  both sides, every sequence of `send`, `send_blob`, `broadcast` and `broadcast_blob` calls of `A` to `kB`, each
  payload's message with its tag within the library's limit (`Call.SubmitsTo`), succeeds, and once forwarded in
  order makes `B` yield exactly one event per payload: from `kA`, with the submitted bytes, a `BinaryMessage` for
  a blob and a `JsonMessage` for JSON, with the session the call passed; and the same from `B` to `A`.
* `relayed_metadata_unauthenticated`: the session id and the encoding label travel outside the ciphertext. As
  long as the relay keeps the ciphertext, `B` yields the sealed bytes from `kA` under whatever session id and in
  whatever variant the relay chose; the broadcast flag and the payload bytes past `length` are not read.

The pairing both ways comes from the library's handshake contract (`Noise.paired_of_handshake`); that the calls
succeed comes from its promise to seal every payload within the limit (`Noise.writeTransport_ok`); delivery is an
induction over the calls, one relayed message at a time (`relay_delivered`), with `Noise.readTransport_of_paired`
keeping the sending side and the receiving side in step. Delivery holds of every sequence of successful calls,
sends to other peers and server requests included (`calls_delivered`).
-/

namespace RelayClient

variable {H T : Type} (N : Noise H T) (codec : Codec)

/-! ### The relay between two clients -/

/-- Modelled from the spec: the relay server's identity routing. A peer request reaches the client whose key it
names, carrying the key of its `sender` in place of that key; the server's own messages go nowhere else. -/
def forward (sender : Bytes) : RequestMessage → Option (Bytes × ResponseMessage)
  | .transparent (.peerHandshake k m) => some (k, .transparent (.peerHandshake sender m))
  | .opaqueMessage (.peerMessage k sessionId envelope) =>
    some (k, .opaqueMessage (.peerMessage sender sessionId envelope))
  | _ => none

/-- The messages the relay hands to `recipient`, in order, of the requests `sent` by `sender`. -/
def deliveredTo (sender recipient : Bytes) (sent : List RequestMessage) : List ResponseMessage :=
  sent.filterMap fun req =>
    match forward sender req with
    | some (k, m) => if k = recipient then some m else none
    | none => none

/-- Facade calls made one after another, each returning `Ok`: the state they leave and the requests they sent,
in order; `none` when one of them fails or panics. -/
def Call.runAll (opts : ClientOptions) (c : Client H T) : List Call → Option (Client H T × List RequestMessage)
  | [] => some (c, [])
  | call :: calls =>
    match call.run N codec opts c with
    | .returns c' sent (.ok ()) => (Call.runAll opts c' calls).map fun r => (r.1, sent ++ r.2)
    | _ => none

/-- The peer handshake of `A` with `B` as the relay carries it: `A.connect_peer(kB)`, `B`'s dispatch of what
the relay forwards of it, and `A`'s dispatch of what the relay forwards of `B`'s answer. -/
def handshake (optsA optsB : ClientOptions) (kA kB : Bytes) (sA sB : Run H T) : Option (Run H T × Run H T) := do
  let sA₁ ← sA.step N codec optsA (.call (.connectPeer kB))
  let sB₁ ← sB.steps N codec optsB ((deliveredTo kA kB (sA₁.outbound.drop sA.outbound.length)).map .dispatch)
  let sA₂ ← sA₁.steps N codec optsA ((deliveredTo kB kA (sB₁.outbound.drop sB.outbound.length)).map .dispatch)
  pure (sA₂, sB₁)

/-- The events the specification has `recipient` yield for what a call of `sender` submits to it: one per
payload, a `BinaryMessage` for a blob and a `JsonMessage` for JSON, with the session the call passed. -/
def Call.expectedAt (sender recipient : Bytes) : Call → List Event
  | .send k (some p) sessionId => if k = recipient then [.jsonMessage sender ⟨p⟩ sessionId] else []
  | .sendBlob k p sessionId => if k = recipient then [.binaryMessage sender p sessionId] else []
  | .broadcast sessionId ks (some p) =>
    (ks.filter (· = recipient)).map fun _ => .jsonMessage sender ⟨p⟩ (some sessionId)
  | .broadcastBlob sessionId ks p =>
    (ks.filter (· = recipient)).map fun _ => .binaryMessage sender p (some sessionId)
  | _ => []

/-- A call with which a client submits one payload to `k` alone: `send`, `send_blob`, `broadcast` or
`broadcast_blob` to `k`, with a value `serde_json` serialises, the payload's message with its `tagLen`-byte tag
within `maxMsgLen`. -/
def Call.SubmitsTo (tagLen : Nat) (k : Bytes) : Call → Prop
  | .send k' (some p) _ | .sendBlob k' p _ => k' = k ∧ p.length + tagLen ≤ maxMsgLen
  | .broadcast _ ks (some p) | .broadcastBlob _ ks p => (∀ k' ∈ ks, k' = k) ∧ p.length + tagLen ≤ maxMsgLen
  | _ => False

/-- The event `handle_relayed_message` yields for a payload relayed with a `Blob` or `Json` label. -/
def relayedEvent (sender p : Bytes) (sessionId : Option SessionId) : Encoding → Event
  | .json => .jsonMessage sender ⟨p⟩ sessionId
  | _ => .binaryMessage sender p sessionId

/-- `a` sends to `kB` and `b` receives from `kA` in transport mode, `a`'s sending direction paired with `b`'s
receiving one. -/
def SendsTo (a : Client H T) (kB : Bytes) (b : Client H T) (kA : Bytes) : Prop :=
  ∃ t u, a.peers kB = some (.transport t) ∧ b.peers kA = some (.transport u) ∧ N.Paired t u

variable {N codec}

@[simp] theorem deliveredTo_nil (sender recipient : Bytes) : deliveredTo sender recipient [] = [] := rfl

@[simp] theorem deliveredTo_append (sender recipient : Bytes) (xs ys : List RequestMessage) :
    deliveredTo sender recipient (xs ++ ys) = deliveredTo sender recipient xs ++ deliveredTo sender recipient ys :=
  List.filterMap_append ..

@[simp] theorem deliveredTo_peerMessage (sender recipient k : Bytes) (sessionId : Option SessionId)
    (envelope : SealedEnvelope) :
    deliveredTo sender recipient [.opaqueMessage (.peerMessage k sessionId envelope)] =
      if k = recipient then [.opaqueMessage (.peerMessage sender sessionId envelope)] else [] := by
  by_cases h : k = recipient <;> simp [deliveredTo, forward, h]

@[simp] theorem deliveredTo_peerHandshake (sender recipient k : Bytes) (m : HandshakeMessage) :
    deliveredTo sender recipient [.transparent (.peerHandshake k m)] =
      if k = recipient then [.transparent (.peerHandshake sender m)] else [] := by
  by_cases h : k = recipient <;> simp [deliveredTo, forward, h]

@[simp] theorem deliveredTo_serverHandshake (sender recipient : Bytes) (m : HandshakeMessage) :
    deliveredTo sender recipient [.transparent (.serverHandshake m)] = [] := rfl

@[simp] theorem deliveredTo_serverMessage (sender recipient : Bytes) (envelope : SealedEnvelope) :
    deliveredTo sender recipient [.opaqueMessage (.serverMessage envelope)] = [] := rfl

theorem SendsTo.inTransport {a b : Client H T} {kA kB : Bytes} (h : SendsTo N a kB b kA) :
    ProtocolState.inTransport (a.peers kB) = true := by
  obtain ⟨t, -, ht, -⟩ := h
  simp [ht]

/-! ### One relayed message at a time -/

/-- `B`'s dispatch of a message sealed on the state paired with its entry for `kA`: it yields the sealed bytes
and keeps the entry paired with the sender's next state. -/
private theorem Run.step_sealed (codec : Codec) (opts : ClientOptions) {s : Run H T} {kA p c₀ : Bytes} {t t' u : T}
    (hk : s.client.peers kA = some (.transport u)) (hp : N.Paired t u) (hw : N.writeTransport t p = .ok (c₀, t'))
    {encoding : Encoding} (he : encoding ≠ .noop) (broadcast : Bool) (sessionId : Option SessionId) :
    ∃ u', N.Paired t' u' ∧
      s.step N codec opts
          (.dispatch (.opaqueMessage (.peerMessage kA sessionId ⟨c₀.length, encoding, c₀, broadcast⟩))) =
        some ⟨{ s.client with peers := s.client.peers.insert kA (.transport u') }, s.outbound,
          s.events ++ [.ok (relayedEvent kA p sessionId encoding)]⟩ := by
  obtain ⟨u', hp', h⟩ := EventLoop.handleRelayedMessage_sealed (c := s.client) hk hp hw encoding broadcast sessionId
  refine ⟨u', hp', ?_⟩
  cases encoding <;>
    simp_all [Run.step, Action.run, EventLoop.handleIncomingMessage, Action.yields, yielded, relayedEvent, Except.map]

/-- One relay call of `A`: if it is to `kB`, `B` yields its payload once the relay forwards it. -/
private theorem relay_delivered (codec : Codec) (optsB : ClientOptions) {kA kB k p : Bytes} {a a' : Client H T}
    {s : Run H T}
    {encoding : Encoding} {broadcast : Bool} {sessionId : Option SessionId} {sent : List RequestMessage}
    (he : encoding ≠ .noop) (hs : SendsTo N a kB s.client kA)
    (h : NativeClient.relay N a k p encoding broadcast sessionId = .returns a' sent (.ok ())) :
    ∃ s', s.steps N codec optsB ((deliveredTo kA kB sent).map .dispatch) = some s' ∧ SendsTo N a' kB s'.client kA ∧
      s'.events = s.events ++ if k = kB then [.ok (relayedEvent kA p sessionId encoding)] else [] := by
  obtain ⟨t, u, ha, hb, hp⟩ := hs
  obtain ⟨t₁, t', c₀, hk, hw, rfl, rfl⟩ := NativeClient.relay_ok h
  by_cases hkB : k = kB
  · subst hkB
    cases ha.symm.trans hk
    obtain ⟨u', hp', hstep⟩ := Run.step_sealed codec optsB hb hp hw he broadcast sessionId
    simp only [deliveredTo_peerMessage, if_pos rfl, List.map_cons, List.map_nil, Run.steps_cons, hstep,
      Run.steps_nil, Option.some_bind, Option.some.injEq, exists_eq_left', if_true]
    exact ⟨⟨t', u', by simp, by simp, hp'⟩, by simp⟩
  · exact ⟨s, by simp [hkB], ⟨t, u, by simp [Ne.symm hkB, ha], hb, hp⟩, by simp [hkB]⟩

/-- A broadcast of `A`: `B` yields the payload once for each time `kB` is among the recipients. -/
private theorem relayBroadcast_delivered (codec : Codec) (optsB : ClientOptions) {kA kB p : Bytes} {sessionId : SessionId}
    {encoding : Encoding} (he : encoding ≠ .noop) :
    ∀ {keys : List Bytes} {a a' : Client H T} {s : Run H T} {sent : List RequestMessage},
      SendsTo N a kB s.client kA →
      NativeClient.relayBroadcast N sessionId p encoding a keys = .returns a' sent (.ok ()) →
      ∃ s', s.steps N codec optsB ((deliveredTo kA kB sent).map .dispatch) = some s' ∧ SendsTo N a' kB s'.client kA ∧
        s'.events = s.events ++ (keys.filter (· = kB)).map fun _ => .ok (relayedEvent kA p (some sessionId) encoding)
  | [], a, a', s, sent, hs, h => by cases h; exact ⟨s, rfl, hs, by simp⟩
  | k :: keys, a, a', s, sent, hs, h => by
    unfold NativeClient.relayBroadcast at h
    split at h
    · rename_i a₁ sent₁ h₁
      rcases h₂ : NativeClient.relayBroadcast N sessionId p encoding a₁ keys with ⟨a₂, sent₂, r₂⟩ | msg <;>
        rw [h₂] at h <;> cases h
      obtain ⟨s₁, hs₁, hi₁, he₁⟩ := relay_delivered codec optsB he hs h₁
      obtain ⟨s₂, hs₂, hi₂, he₂⟩ := relayBroadcast_delivered codec optsB he hi₁ h₂
      refine ⟨s₂, by simp [Run.steps_append, hs₁, hs₂], hi₂, ?_⟩
      by_cases hk : k = kB <;> simp [he₂, he₁, hk, List.filter_cons]
    · rename_i hne
      exact (hne _ _ h).elim

/-! ### Calls of the sender -/

/-- One successful facade call of `A`: `B` yields what it submits to `kB`, once the relay forwards it. -/
private theorem call_delivered (codec : Codec) (optsA optsB : ClientOptions) {kA kB : Bytes} {a a' : Client H T}
    {s : Run H T} {call : Call} {sent : List RequestMessage} (hs : SendsTo N a kB s.client kA)
    (h : call.run N codec optsA a = .returns a' sent (.ok ())) :
    ∃ s', s.steps N codec optsB ((deliveredTo kA kB sent).map .dispatch) = some s' ∧ SendsTo N a' kB s'.client kA ∧
      s'.events = s.events ++ (call.expectedAt kA kB).map .ok := by
  have unchanged : a'.peers = a.peers → (∃ m, sent = [m] ∧ deliveredTo kA kB [m] = []) →
      ∃ s', s.steps N codec optsB ((deliveredTo kA kB sent).map .dispatch) = some s' ∧
        SendsTo N a' kB s'.client kA ∧ s'.events = s.events ++ [] := by
    rintro hp ⟨m, rfl, hm⟩
    exact ⟨s, by simp [hm], by rwa [SendsTo, hp], by simp⟩
  cases call with
  | connect =>
    obtain ⟨hp, len, payload, rfl⟩ := NativeClient.connect_ok h
    exact unchanged hp ⟨_, rfl, rfl⟩
  | connectPeer k =>
    obtain ⟨t, u, ha, hb, hp⟩ := hs
    rcases NativeClient.connectPeer_returns h with ⟨-, e, he⟩ | ⟨-, hk, -, hi₁, len, payload, -, -, rfl, rfl⟩
    · cases he
    · have hkB : kB ≠ k := fun e => by simp [e, hk] at ha
      exact ⟨s, by simp [Ne.symm hkB], ⟨t, u, by simp [hkB, ha], hb, hp⟩, by simp [Call.expectedAt]⟩
  | send k serialized sessionId =>
    cases serialized with
    | none => cases h
    | some p =>
      obtain ⟨s', hs', hi, he⟩ := relay_delivered codec optsB (by decide) hs h
      exact ⟨s', hs', hi, by simp only [he, Call.expectedAt]; split_ifs <;> rfl⟩
  | sendBlob k p sessionId =>
    obtain ⟨s', hs', hi, he⟩ := relay_delivered codec optsB (by decide) hs h
    exact ⟨s', hs', hi, by simp only [he, Call.expectedAt]; split_ifs <;> rfl⟩
  | broadcast sessionId keys serialized =>
    cases serialized with
    | none => cases h
    | some p =>
      obtain ⟨s', hs', hi, he⟩ := relayBroadcast_delivered codec optsB (by decide) hs h
      exact ⟨s', hs', hi, by simp [he, Call.expectedAt, relayedEvent]⟩
  | broadcastBlob sessionId keys p =>
    obtain ⟨s', hs', hi, he⟩ := relayBroadcast_delivered codec optsB (by decide) hs h
    exact ⟨s', hs', hi, by simp [he, Call.expectedAt, relayedEvent]⟩
  | _ =>
    obtain ⟨hp, envelope, rfl⟩ := NativeClient.request_ok h
    exact unchanged hp ⟨_, rfl, rfl⟩

/-- Successful facade calls of `A`, one after another: `B` yields what they submit to `kB`, in order, once the
relay forwards their requests in order. -/
theorem calls_delivered (codec : Codec) (optsA optsB : ClientOptions) {kA kB : Bytes} :
    ∀ {calls : List Call} {a a' : Client H T} {s : Run H T} {sent : List RequestMessage},
      SendsTo N a kB s.client kA → Call.runAll N codec optsA a calls = some (a', sent) →
      ∃ s', s.steps N codec optsB ((deliveredTo kA kB sent).map .dispatch) = some s' ∧
        SendsTo N a' kB s'.client kA ∧ s'.events = s.events ++ (calls.flatMap (Call.expectedAt kA kB)).map .ok
  | [], a, a', s, sent, hs, h => by cases h; exact ⟨s, rfl, hs, by simp⟩
  | call :: calls, a, a', s, sent, hs, h => by
    simp only [Call.runAll] at h
    split at h
    · rename_i a₁ sent₁ h₁
      obtain ⟨⟨a₂, sent₂⟩, h₂, he⟩ := Option.map_eq_some'.1 h
      cases he
      obtain ⟨s₁, hs₁, hi₁, he₁⟩ := call_delivered codec optsA optsB hs h₁
      obtain ⟨s₂, hs₂, hi₂, he₂⟩ := calls_delivered codec optsA optsB hi₁ h₂
      exact ⟨s₂, by simp [Run.steps_append, hs₁, hs₂], hi₂, by simp [he₂, he₁]⟩
    · cases h

/-! ### Calls within the limit succeed -/

open ProtocolState in
/-- Relaying a payload within the limit on an entry in transport mode succeeds. -/
private theorem relay_within_limit {a : Client H T} {k p : Bytes} (hk : inTransport (a.peers k) = true)
    (hl : p.length + N.tagLen ≤ maxMsgLen) (encoding : Encoding) (broadcast : Bool) (sessionId : Option SessionId) :
    ∃ a' sent, NativeClient.relay N a k p encoding broadcast sessionId = .returns a' sent (.ok ()) := by
  obtain ⟨t, ht⟩ : ∃ t, a.peers k = some (.transport t) := by
    rcases ha : a.peers k with _ | (_ | t) <;> simp_all
  obtain ⟨c₀, t', hw⟩ := N.writeTransport_ok t p hl
  exact ⟨_, _, NativeClient.relay_transport ht hw encoding broadcast sessionId⟩

open ProtocolState in
private theorem relayBroadcast_within_limit {k p : Bytes} {sessionId : SessionId} {encoding : Encoding}
    (hl : p.length + N.tagLen ≤ maxMsgLen) :
    ∀ {a : Client H T} {keys : List Bytes}, inTransport (a.peers k) = true → (∀ k' ∈ keys, k' = k) →
      ∃ a' sent, NativeClient.relayBroadcast N sessionId p encoding a keys = .returns a' sent (.ok ())
  | a, [], _, _ => ⟨a, [], rfl⟩
  | a, k' :: keys, hk, hks => by
    obtain rfl := hks k' (List.mem_cons_self ..)
    obtain ⟨a₁, sent₁, h₁⟩ := relay_within_limit hk hl encoding true (some sessionId)
    obtain ⟨a₂, sent₂, h₂⟩ : ∃ a' sent, NativeClient.relayBroadcast N sessionId p encoding a₁ keys =
        .returns a' sent (.ok ()) := relayBroadcast_within_limit hl
      ((NativeClient.keepsModes_relay h₁).peers_transport k' ▸ hk) fun k'' h => hks k'' (List.mem_cons_of_mem _ h)
    exact ⟨a₂, sent₁ ++ sent₂, by simp [NativeClient.relayBroadcast, h₁, h₂]⟩

open ProtocolState in
/-- A call that submits to `k` within the limit succeeds while the entry for `k` is in transport mode. -/
private theorem Call.run_of_submitsTo (opts : ClientOptions) {a : Client H T} {k : Bytes} {call : Call}
    (hk : inTransport (a.peers k) = true) (hc : call.SubmitsTo N.tagLen k) :
    ∃ a' sent, call.run N codec opts a = .returns a' sent (.ok ()) := by
  cases call with
  | send k' serialized sessionId =>
    cases serialized with
    | none => cases hc
    | some p => obtain ⟨rfl, hl⟩ := hc; exact relay_within_limit hk hl .json false sessionId
  | sendBlob k' p sessionId => obtain ⟨rfl, hl⟩ := hc; exact relay_within_limit hk hl .blob false sessionId
  | broadcast sessionId keys serialized =>
    cases serialized with
    | none => cases hc
    | some p => exact relayBroadcast_within_limit hc.2 hk hc.1
  | broadcastBlob sessionId keys p => exact relayBroadcast_within_limit hc.2 hk hc.1
  | _ => cases hc

open ProtocolState in
/-- Calls that submit to `k` within the limit, one after another, all succeed. -/
theorem Call.runAll_of_submitsTo (opts : ClientOptions) {k : Bytes} :
    ∀ {calls : List Call} {a : Client H T}, inTransport (a.peers k) = true →
      (∀ call ∈ calls, call.SubmitsTo N.tagLen k) →
        ∃ a' sent, Call.runAll N codec opts a calls = some (a', sent)
  | [], a, _, _ => ⟨a, [], rfl⟩
  | call :: calls, a, hk, hc => by
    obtain ⟨a₁, sent₁, h₁⟩ : ∃ a' sent, call.run N codec opts a = .returns a' sent (.ok ()) :=
      Call.run_of_submitsTo opts hk (hc call (List.mem_cons_self ..))
    obtain ⟨a₂, sent₂, h₂⟩ :=
      Call.runAll_of_submitsTo opts ((Call.keepsModes_of_run h₁).peers_transport k ▸ hk)
        fun c hc' => hc c (List.mem_cons_of_mem _ hc')
    exact ⟨a₂, sent₁ ++ sent₂, by simp [Call.runAll, h₁, h₂]⟩

/-- While `a` sends to `kB` paired with `b`'s entry for `kA`, calls of `a` that submit to `kB` within the limit
succeed, and `b` yields what they submit once the relay forwards their requests in order. -/
private theorem submitted_delivered (codec : Codec) (optsA optsB : ClientOptions) {kA kB : Bytes} {a : Client H T}
    {s : Run H T} (hs : SendsTo N a kB s.client kA) (calls : List Call)
    (hc : ∀ call ∈ calls, call.SubmitsTo N.tagLen kB) :
    ∃ a' sent s', Call.runAll N codec optsA a calls = some (a', sent) ∧
      s.steps N codec optsB ((deliveredTo kA kB sent).map .dispatch) = some s' ∧
      s'.events = s.events ++ (calls.flatMap (Call.expectedAt kA kB)).map .ok := by
  obtain ⟨a', sent, hrun⟩ := Call.runAll_of_submitsTo optsA hs.inTransport hc
  obtain ⟨s', hs', -, he⟩ := calls_delivered codec optsA optsB hs hrun
  exact ⟨a', sent, s', hrun, hs', he⟩

/-! ### The peer handshake -/

/-- A peer handshake that yields `PeerConnected` on both sides leaves each client sending to the other in
transport mode, paired both ways. -/
theorem handshake_sendsTo {optsA optsB : ClientOptions} {kA kB : Bytes} {sA sB sA₂ sB₁ : Run H T}
    (h : handshake N codec optsA optsB kA kB sA sB = some (sA₂, sB₁))
    (hA : sA₂.events = sA.events ++ [.ok (.peerConnected kB)])
    (hB : sB₁.events = sB.events ++ [.ok (.peerConnected kA)]) :
    SendsTo N sA₂.client kB sB₁.client kA ∧ SendsTo N sB₁.client kA sA₂.client kB := by
  simp only [handshake, bind, pure, Option.bind_eq_some, Option.some.injEq, Prod.mk.injEq] at h
  obtain ⟨sA₁, h₁, sB₁', h₂, sA₂', h₃, rfl, rfl⟩ := h
  obtain ⟨sent, r, hc, ho, hev⟩ := Run.step_call h₁
  rcases NativeClient.connectPeer_returns hc with ⟨rfl, -⟩ | ⟨-, -, hi, hi₁, len, payload, -, hw, hc₁, rfl⟩
  · -- `connect_peer` failed: `B` is handed nothing and yields nothing
    simp only [ho, List.append_nil, List.drop_length, deliveredTo_nil, List.map_nil, Run.steps_nil,
      Option.some.injEq] at h₂
    subst h₂
    simp at hB
  -- `B` answers the initiator's message
  simp only [ho, List.drop_left, deliveredTo_peerHandshake, if_true, List.map_cons, List.map_nil,
    Run.steps_cons, Run.steps_nil, Option.bind_eq_some, Option.some.injEq, exists_eq_right] at h₂
  obtain ⟨sentB, hB', hoB⟩ := Run.step_dispatch h₂ hB
  obtain ⟨hr, msg, len', payload', tr, -, hsl, hresp, hcB, rfl⟩ := EventLoop.peerHandshakeResponder_ok hB'
  obtain ⟨m₁, hm₁, rfl, rfl, -⟩ := Noise.throughBuffer_ok hw
  cases (slice_append ..).symm.trans hsl
  obtain ⟨x, hr₁, m₂, hr₂, hx, hm₂, htr, hsl₂⟩ := EventLoop.respond_ok hresp
  -- `A` completes on the answer
  simp only [hoB, List.drop_left, deliveredTo_peerHandshake, if_true, List.map_cons, List.map_nil,
    Run.steps_cons, Run.steps_nil, Option.bind_eq_some, Option.some.injEq, exists_eq_right] at h₃
  obtain ⟨sentA, hA', -⟩ := Run.step_dispatch h₃ (hA.trans (by rw [hev]))
  obtain ⟨r', hack, hr'⟩ := Outcome.map_eq_returns hA'
  cases r' with
  | error => cases hr'
  | ok ev =>
    obtain ⟨hi', msg', ti, hhi, hsl', hcomp, hcA⟩ := EventLoop.peerHandshakeAck_ok hack
    simp only [hc₁, Registry.insert_apply, if_true, Option.some.injEq, ProtocolState.handshake.injEq] at hhi
    subst hhi
    cases hsl₂.symm.trans hsl'
    obtain ⟨y, hi₂, hy, hti⟩ := EventLoop.complete_ok hcomp
    obtain ⟨h₁₂, h₂₁⟩ := N.paired_of_handshake hm₁ hx hm₂ htr hy hti
    exact ⟨⟨ti, tr, by simp [hcA], by simp [hcB], h₁₂⟩, ⟨tr, ti, by simp [hcB], by simp [hcA], h₂₁⟩⟩

/-! ### End to end -/

/-- The runs of the reference clients `[1]` and `[2]` after their peer handshake through the relay. -/
def referenceHandshake : Run Noise.Reference.Handshake Noise.Reference.Transport ×
    Run Noise.Reference.Handshake Noise.Reference.Transport :=
  (handshake Noise.reference Codec.silent (referenceOptions 1) (referenceOptions 2) [1] [2] (referenceStart 1)
    (referenceStart 2)).getD (referenceStart 1, referenceStart 2)

/-- The session id, the encoding label, the broadcast flag and the payload bytes past `length` of a peer message
are not authenticated. For a message `A` sealed with `encrypt_peer_channel` and any `Blob` or `Json` message the
relay makes of it keeping its ciphertext, `B`'s entry paired with `A`'s yields the sealed bytes from `kA`, under
the session id the relay sent and in the variant its label picks. -/
theorem relayed_metadata_unauthenticated {c : Client H T} {kA kB p : Bytes} {t u : T} {encoding : Encoding}
    {broadcast : Bool} {sessionId : Option SessionId} {envelope : SealedEnvelope} {peer : ProtocolState H T}
    (hA : encryptPeerChannel N kB (.transport t) p encoding broadcast sessionId =
      .ok (.opaqueMessage (.peerMessage kB sessionId envelope), peer))
    (hB : c.peers kA = some (.transport u)) (hp : N.Paired t u) (sessionId' : Option SessionId)
    (envelope' : SealedEnvelope) (hl : envelope'.length ≤ envelope'.payload.length)
    (hc : envelope'.payload.take envelope'.length = envelope.payload.take envelope.length)
    (hn : envelope'.encoding ≠ .noop) :
    ∃ u', EventLoop.handleRelayedMessage N c kA envelope' sessionId' =
      .returns { c with peers := c.peers.insert kA (.transport u') } []
        (.ok (relayedEvent kA p sessionId' envelope'.encoding)) := by
  obtain ⟨t₀, t', c₀, he, -, hw, hreq⟩ := encryptPeerChannel_ok hA
  cases he
  cases hreq
  obtain ⟨u', hr, -⟩ := N.readTransport_of_paired hp hw
  refine ⟨u', ?_⟩
  rw [EventLoop.handleRelayedMessage_of_read hB hl (by simpa [hc] using hr)]
  cases h : envelope'.encoding <;> simp_all [relayedEvent]

set_option maxRecDepth 20000 in
theorem relayed_metadata_unauthenticated_reference :
    ∃ u', EventLoop.handleRelayedMessage Noise.reference referenceHandshake.2.client [1]
        ⟨17, .json, [7] ++ List.replicate 16 10 ++ [3], true⟩ (some 5) =
      .returns
        { referenceHandshake.2.client with peers := referenceHandshake.2.client.peers.insert [1] (.transport u') }
        [] (.ok (relayedEvent [1] [7] (some 5) .json)) :=
  @relayed_metadata_unauthenticated _ _ Noise.reference referenceHandshake.2.client [1] [2] [7]
    ⟨[1, 2, 0], 0, [1, 2, 1], 0⟩
    ⟨[1, 2, 1], 0, [1, 2, 0], 0⟩ .blob false none ⟨17, .blob, [7] ++ List.replicate 16 10, false⟩
    (.transport ⟨[1, 2, 0], 1, [1, 2, 1], 0⟩) (by rfl) (by rfl) ⟨rfl, rfl⟩ (some 5)
    ⟨17, .json, [7] ++ List.replicate 16 10 ++ [3], true⟩ (by decide) (by rfl) (by decide)

set_option maxRecDepth 20000 in
/-- After the reference handshake, the relay moves a blob `A` sent for no session to session `5` as JSON:
`B` yields neither an error nor the event of the message `A` sent. -/
theorem relayed_metadata_rewritten_reference :
    NativeClient.sendBlob Noise.reference referenceHandshake.1.client [2] [7] none =
        .returns { referenceHandshake.1.client with
            peers := referenceHandshake.1.client.peers.insert [2] (.transport ⟨[1, 2, 0], 1, [1, 2, 1], 0⟩) }
          [.opaqueMessage (.peerMessage [2] none ⟨17, .blob, [7] ++ List.replicate 16 10, false⟩)] (.ok ()) ∧
      EventLoop.handleRelayedMessage Noise.reference referenceHandshake.2.client [1]
          ⟨17, .blob, [7] ++ List.replicate 16 10, false⟩ none =
        .returns { referenceHandshake.2.client with
            peers := referenceHandshake.2.client.peers.insert [1] (.transport ⟨[1, 2, 1], 0, [1, 2, 0], 1⟩) } []
          (.ok (.binaryMessage [1] [7] none)) ∧
      EventLoop.handleRelayedMessage Noise.reference referenceHandshake.2.client [1]
          ⟨17, .json, [7] ++ List.replicate 16 10, false⟩ (some 5) =
        .returns { referenceHandshake.2.client with
            peers := referenceHandshake.2.client.peers.insert [1] (.transport ⟨[1, 2, 1], 0, [1, 2, 0], 1⟩) } []
          (.ok (.jsonMessage [1] ⟨[7]⟩ (some 5))) :=
  ⟨by rfl, by rfl, by rfl⟩

end RelayClient
