import RelayClient.Link

/-!
# The channel between two clients, over every interleaving

Over every interleaving of the facade calls and dispatches of two clients, of the relay's deliveries between
them and of any traffic of third parties, the channel between the two clients is always in one of five phases
(`View.Phase`, `View.Dead`): neither has an entry for the other; one has sent the first handshake message; the
other has answered it and may already be sealing messages; both are in transport mode, each direction in step
with what is in flight; or dead. The invariant holds initially and every step keeps it (`Link.Reachable.inv`),
and what it gives over whole runs:

* `delivered_in_order`: what a client has yielded of the other's messages is, in order, a prefix of what the
  other's calls submitted to it, and while both are in transport mode the rest is exactly what is in flight: no
  message is lost, duplicated, reordered or altered, whatever the interleaving;
* `forwarded_never_aborts`: dispatching what the relay forwarded from the other client never makes an event
  loop panic (compare `handleIncomingMessage_panics`, whose panics need input no client sends);
* `connected_stays`: once both are in transport mode for each other, they stay so (no responder message
  removes an entry, as one does in `peer_entry_removed`, since no client sends one then);
* `simultaneous_open_stuck`: if both start the handshake before either answers, each refuses the other's first
  message (`PeerAlreadyExistsMaybeRace`), and both entries stay in handshake mode forever;
* `dead_channel_silent`: a dead channel stays dead, and neither client yields another message of the other;
* `third_party_isolated`: traffic with other peers and the server leaves the channel as it is;
* `delivers_everything`: on a connected channel, delivering what is in flight to a client makes it yield exactly
  what the other client submitted to it;
* `early_messages_delivered`: the same once the other client has answered the handshake, the messages it sealed
  before the initiator completed included, unless completing fails and the channel dies.

The steps into `View.Dead` are a race of the two first handshake messages and a failure of the library while
writing or completing the handshake. The pairing of the two transport states comes from the library's handshake
contract (`Noise.paired_of_handshake`); the step of each direction from `Sealed.head`.
-/

namespace RelayClient

variable {H T : Type} (N : Noise H T) (key : Side → Bytes)

open ProtocolState

/-- `Flow N sender u t ms evs`: the receiving side `u` opens the messages `ms` that `sender`, now at `t`, sealed,
in order, to the events `evs`: it is paired with a state of the sender from which `ms` were sealed. -/
def Flow (sender : Bytes) (u t : T) (ms : List ResponseMessage) (evs : List Event) : Prop :=
  ∃ t₀, N.Paired t₀ u ∧ Sealed N sender t₀ t ms evs

/-- A message in flight to a client that the client refuses, its entry `e` unchanged, the sender's entry being
`e'`: a first handshake message to a present entry (`PeerAlreadyExistsMaybeRace`), or a peer message to an entry
not in transport mode while the sender's is. -/
def Inert (sender : Bytes) (e e' : Option (ProtocolState H T)) (m : ResponseMessage) : Prop :=
  (∃ len buf, m = .transparent (.peerHandshake sender (.initiator len buf)) ∧ e ≠ none) ∨
    ∃ sessionId envelope, m = .opaqueMessage (.peerMessage sender sessionId envelope) ∧ inTransport e = false ∧
      inTransport e' = true

theorem Inert.mono {k : Bytes} {e₁ e₁' e₂ e₂' : Option (ProtocolState H T)} {m : ResponseMessage}
    (h : Inert k e₁ e₁' m) (hp : e₁ ≠ none → e₂ ≠ none)
    (ht : inTransport e₁ = false → inTransport e₁' = true → inTransport e₂ = false ∧ inTransport e₂' = true) :
    Inert k e₂ e₂' m := by
  rcases h with ⟨len, buf, rfl, he⟩ | ⟨sessionId, envelope, rfl, he, he'⟩
  · exact .inl ⟨len, buf, rfl, hp he⟩
  · exact .inr ⟨sessionId, envelope, rfl, ht he he'⟩

/-- A message in flight that the client refuses: it fails, leaving the entry as it was and sending nothing. -/
theorem Inert.refused (codec : Codec) (o : ClientOptions) {c : Client H T} {k : Bytes}
    {e' : Option (ProtocolState H T)} {m : ResponseMessage} (hi : Inert k (c.peers k) e' m) :
    ∃ c' e, EventLoop.handleIncomingMessage N codec o c m = .returns c' [] (.error e) ∧ c'.peers k = c.peers k := by
  rcases hi with ⟨len, buf, rfl, he⟩ | ⟨sessionId, envelope, rfl, he, -⟩
  · exact ⟨c, _, EventLoop.handleIncomingMessage_initiator_present he, rfl⟩
  · exact EventLoop.handleIncomingMessage_closed he

/-- What a client puts on its channel to the other: a handshake message of either role or a peer message, with
its own key, within its buffer and, for a peer message, not `Noop`. -/
def Emitted (sender : Bytes) (m : ResponseMessage) : Prop :=
  m.peerKey = some sender ∧ EventLoop.hasArm m = true ∧ EventLoop.InBounds m

section Emitted

variable {N}

theorem Sealed.emitted {sender : Bytes} {t t₁ : T} {ms : List ResponseMessage} {evs : List Event}
    (h : Sealed N sender t t₁ ms evs) : ∀ m ∈ ms, Emitted sender m := by
  induction h with
  | refl => simp
  | write _ _ he _ _ ih =>
    intro m hm
    rcases List.mem_cons.1 hm with rfl | hm
    · exact ⟨rfl, rfl, Nat.le_refl _, he⟩
    · exact ih m hm
  | read _ _ ih => exact ih

theorem emitted_initiator {h₀ h₁ : H} {len : Nat} {buf : Bytes} (sender : Bytes)
    (hw : N.handshakeWrite h₀ [] (zeros 1024) = .ok (len, buf, h₁)) :
    Emitted sender (.transparent (.peerHandshake sender (.initiator len buf))) := by
  obtain ⟨out, -, rfl, rfl, -⟩ := Noise.throughBuffer_ok hw
  exact ⟨rfl, rfl, by simp [EventLoop.InBounds]⟩

theorem emitted_responder {hr : H} {message payload : Bytes} {len : Nat} {tr : T} (sender : Bytes)
    (hresp : EventLoop.respond N hr message = .ok (len, payload, tr)) :
    Emitted sender (.transparent (.peerHandshake sender (.responder len payload))) := by
  obtain ⟨_, _, _, _, -, -, -, hsl⟩ := EventLoop.respond_ok hresp
  exact ⟨rfl, rfl, (slice_eq_some_iff.1 hsl).1⟩

/-- What a client emitted does not make the other's dispatch panic. -/
theorem Emitted.not_panic {codec : Codec} {o : ClientOptions} {c : Client H T} {k : Bytes} {m : ResponseMessage}
    (hm : Emitted k m) : ¬ (EventLoop.handleIncomingMessage N codec o c m).IsPanic := by
  obtain ⟨hk, ha, hb⟩ := hm
  rcases m with _ | (_ | _ | _ | ⟨k', _ | ⟨len, buf⟩ | ⟨len, buf⟩⟩) | (_ | env | ⟨k', sid, env⟩)
  -- the messages without a peer key, and those without an arm
  all_goals first
    | (cases hk; done)
    | (cases ha; done)
    | skip
  · exact EventLoop.peerHandshakeResponder_not_panic hb
  · exact fun h => EventLoop.peerHandshakeAck_not_panic hb (Outcome.isPanic_map.1 h)
  · exact fun h => EventLoop.handleRelayedMessage_not_panic hb.1 hb.2 (Outcome.isPanic_map.1 h)

/-- The first message `connect_peer` wrote, answered by `peer_handshake_responder` and completed by
`peer_handshake_ack`: the two transport states are paired both ways. -/
theorem paired_of_complete {h₀ h₁ hr : H} {len len' : Nat} {buf payload : Bytes} {tr ti : T}
    (hw : N.handshakeWrite h₀ [] (zeros 1024) = .ok (len, buf, h₁))
    (hresp : EventLoop.respond N hr (buf.take len) = .ok (len', payload, tr))
    (hc : EventLoop.complete N h₁ (payload.take len') = .ok ti) : N.Paired ti tr ∧ N.Paired tr ti := by
  obtain ⟨m₁, hm₁, rfl, rfl, -⟩ := Noise.throughBuffer_ok hw
  obtain ⟨x, hr₁, m₂, hr₂, hx, hm₂, htr, hsl⟩ := EventLoop.respond_ok hresp
  obtain ⟨-, rfl⟩ := slice_eq_some_iff.1 hsl
  obtain ⟨y, hi₂, hy, hti⟩ := EventLoop.complete_ok hc
  rw [List.take_left' rfl] at hx
  exact N.paired_of_handshake hm₁ hx hm₂ htr hy hti

end Emitted

namespace View

variable (v : View H T)

/-- The live phases of the channel, with the events in flight to each client. -/
inductive Phase : (Side → List Event) → Prop
  /-- Neither client has an entry for the other, and nothing is in flight. -/
  | idle : v.entry .a = none → v.entry .b = none → v.inbox .a = [] → v.inbox .b = [] → Phase fun _ => []
  /-- `s` has written the first handshake message, which is in flight to the other client. -/
  | initiated (s : Side) {h₀ h₁ : H} {len : Nat} {buf : Bytes} :
      N.handshakeWrite h₀ [] (zeros 1024) = .ok (len, buf, h₁) → v.entry s = some (.handshake h₁) →
      v.entry s.other = none → v.inbox s = [] →
      v.inbox s.other = [.transparent (.peerHandshake (key s) (.initiator len buf))] → Phase fun _ => []
  /-- The other client has answered `s`'s first message and sealed `ms` since; all of it is in flight to `s`. -/
  | responded (s : Side) {h₀ h₁ hr : H} {len len' : Nat} {buf payload : Bytes} {tr u : T}
      {ms : List ResponseMessage} {evs : List Event} :
      N.handshakeWrite h₀ [] (zeros 1024) = .ok (len, buf, h₁) →
      EventLoop.respond N hr (buf.take len) = .ok (len', payload, tr) → Sealed N (key s.other) tr u ms evs →
      (∀ x, N.Paired x tr → N.Paired x u) → v.entry s = some (.handshake h₁) →
      v.entry s.other = some (.transport u) →
      v.inbox s = .transparent (.peerHandshake (key s.other) (.responder len' payload)) :: ms →
      v.inbox s.other = [] → Phase (Function.update (fun _ => []) s evs)
  /-- Both clients are in transport mode, each direction in step with what is in flight. -/
  | connected {t : Side → T} {pending : Side → List Event} : (∀ s, v.entry s = some (.transport (t s))) →
      (∀ s, Flow N (key s.other) (t s) (t s.other) (v.inbox s) (pending s)) → Phase pending

/-- A dead channel: an entry is present and one is not in transport mode, and the clients refuse everything in
flight; what each client has yielded of the other's messages is a prefix of what was submitted to it. -/
structure Dead : Prop where
  present : ∃ s, v.entry s ≠ none
  closed : ∃ s, inTransport (v.entry s) = false
  inert : ∀ s, ∀ m ∈ v.inbox s, Inert (key s.other) (v.entry s) (v.entry s.other) m
  received_le : ∀ s, v.received s <+: v.submitted s

/-- The invariant of the channel: a live phase whose in-flight events complete what each client has yielded to
what was submitted to it, or a dead channel. -/
def Inv : Prop :=
  (∃ pending, v.Phase N key pending ∧ ∀ s, v.received s ++ pending s = v.submitted s) ∨ v.Dead key

variable {N key} {v : View H T} {x : Side} {rest fw : List ResponseMessage} {e : Option (ProtocolState H T)}
  {got evs : List Event}

/-- What a step yields of the other client's messages and submits to it, accounted for by what is in flight. -/
theorem steady_after {pending : Side → List Event} (pending' : Side → List Event)
    (h : ∀ s, v.received s ++ pending s = v.submitted s)
    (hx : got ++ pending' x = pending x) (hx' : pending' x.other = pending x.other ++ evs) :
    ∀ s, (v.after x rest e fw got evs).received s ++ pending' s = (v.after x rest e fw got evs).submitted s := by
  intro s
  rcases Side.eq_or_eq_other s x with rfl | rfl
  · simp [← h s, ← hx]
  · simp [← h x.other, hx']

theorem received_le_after (h : ∀ s, v.received s <+: v.submitted s) (hg : got = []) :
    ∀ s, (v.after x rest e fw got evs).received s <+: (v.after x rest e fw got evs).submitted s := by
  subst hg
  intro s
  rcases Side.eq_or_eq_other s x with rfl | rfl
  · simpa using h s
  · simpa using (h x.other).trans (List.prefix_append _ _)

/-! ### Facade calls -/

/-- Sealing on a channel in transport mode, in a dead channel: the new messages go to a client not in transport
mode, which refuses them. -/
theorem Dead.advance {t t' : T} (hd : v.Dead key) (hx : v.entry x = some (.transport t))
    (hs : Sealed N (key x) t t' fw evs) : (v.after x (v.inbox x) (some (.transport t')) fw [] evs).Dead key := by
  obtain ⟨y, hy⟩ := hd.closed
  have hy : inTransport (v.entry x.other) = false := by
    rcases Side.eq_or_eq_other y x with rfl | rfl
    · simp [hx] at hy
    · exact hy
  refine ⟨⟨x, by simp⟩, ⟨x.other, by simpa using hy⟩, fun s m hm => ?_, received_le_after hd.received_le rfl⟩
  rcases Side.eq_or_eq_other s x with rfl | rfl
  · simp only [after_inbox_self] at hm
    exact (hd.inert s m hm).mono (by simp) (by simp [hx])
  · simp only [after_inbox_other, List.mem_append] at hm
    rcases hm with hm | hm
    · exact (hd.inert _ m hm).mono (by simp) fun h _ => ⟨by simpa using h, by simp⟩
    · obtain ⟨sessionId, envelope, rfl⟩ := hs.peerMessage m hm
      exact .inr ⟨sessionId, envelope, by simp, by simpa using hy, by simp⟩

/-- A call that seals on an entry in transport mode keeps the invariant: the responder of a handshake the
initiator has not completed yet, or either client of a connected channel, puts the new messages in flight, in
step with what is already there. -/
theorem Inv.advance {t t' : T} (hi : v.Inv N key) (hx : v.entry x = some (.transport t))
    (hs : Sealed N (key x) t t' fw evs) (hp : ∀ y, N.Paired y t → N.Paired y t') :
    (v.after x (v.inbox x) (some (.transport t')) fw [] evs).Inv N key := by
  rcases hi with ⟨pending, hph, hst⟩ | hd
  · cases hph with
    | idle ha hb _ _ => cases x <;> simp_all
    | initiated s _ h₁ h₂ _ _ => rcases Side.eq_or_eq_other s x with rfl | rfl <;> simp_all
    | responded s hw hresp hsl hpr h₁ h₂ hin hin' =>
      rcases Side.eq_or_eq_other s x with rfl | rfl
      · simp_all
      · simp only [Side.other_other] at hsl h₂ hin hin'
        cases hx.symm.trans h₂
        refine .inl ⟨_, .responded x.other hw hresp (by simpa using hsl.trans hs) (fun y hy => hp y (hpr y hy))
          (by simpa using h₁) (by simp) (by simp [hin]) (by simpa using hin'), steady_after _ hst ?_ ?_⟩ <;>
          simp
    | @connected t₁ pending hent hflow =>
      have ht : t₁ x = t := by simpa [hent x] using hx
      refine .inl ⟨_, .connected (t := fun s => if s = x then t' else t₁ s) (fun s => ?_) (fun s => ?_),
        steady_after (Function.update pending x.other (pending x.other ++ evs)) hst (by simp) (by simp)⟩
      · rcases Side.eq_or_eq_other s x with rfl | rfl <;> simp [hent]
      · obtain ⟨t₀, hp₀, hs₀⟩ := hflow s
        rcases Side.eq_or_eq_other s x with rfl | rfl
        · exact ⟨t₀, by simpa using hp t₀ (ht ▸ hp₀), by simpa using hs₀⟩
        · simp only [Side.other_other, ht] at hs₀
          exact ⟨t₀, by simpa using hp₀, by simpa using hs₀.trans hs⟩
  · exact .inr (hd.advance hx hs)

/-- `connect_peer` on an absent entry, in a dead channel or next to the other client's handshake in flight: the
channel is (or goes) dead, each first handshake message in flight reaching a present entry. -/
theorem Dead.initiates {h₁ : H} (hx : v.entry x = none) (hi : Initiates N (key x) (some (.handshake h₁)) fw)
    (hp : v.entry x.other ≠ none)
    (hin : ∀ m ∈ v.inbox x, Inert (key x.other) (some (.handshake h₁)) (v.entry x.other) m)
    (hin' : ∀ m ∈ v.inbox x.other, Inert (key x) (v.entry x.other) (v.entry x) m)
    (hr : ∀ s, v.received s <+: v.submitted s) : (v.after x (v.inbox x) (some (.handshake h₁)) fw [] []).Dead key := by
  refine ⟨⟨x, by simp⟩, ⟨x, by simp⟩, fun s m hm => ?_, received_le_after hr rfl⟩
  rcases Side.eq_or_eq_other s x with rfl | rfl
  · simp only [after_inbox_self] at hm
    simpa using hin m hm
  · simp only [after_inbox_other, List.mem_append] at hm
    rcases hm with hm | hm
    · simp only [Side.other_other, after_entry_other, after_entry_self]
      exact (hin' m hm).mono id (by simp [hx])
    · cases hi with
      | sent => exact .inl ⟨_, _, by simpa using hm, by simpa using hp⟩
      | failed => simp at hm

/-- `connect_peer` on an absent entry of a dead channel leaves it dead. -/
theorem Dead.connectPeer (hd : v.Dead key) (hx : v.entry x = none) (he : Initiates N (key x) e fw) :
    (v.after x (v.inbox x) e fw [] []).Dead key := by
  obtain ⟨h₁, rfl⟩ : ∃ h₁, e = some (.handshake h₁) := by cases he <;> exact ⟨_, rfl⟩
  obtain ⟨y, hy⟩ := hd.present
  exact Dead.initiates hx he (by rcases Side.eq_or_eq_other y x with rfl | rfl <;> simp_all)
    (fun m hm => (hd.inert x m hm).mono (by simp) (by simp)) (fun m hm => by simpa using hd.inert x.other m hm)
    hd.received_le

/-- `connect_peer` on an absent entry keeps the invariant: from an idle channel it starts the handshake (or goes
dead if the first message cannot be written); next to the other client's handshake in flight it makes the race
that kills the channel. -/
theorem Inv.initiates (hi : v.Inv N key) (hx : v.entry x = none) (he : Initiates N (key x) e fw) :
    (v.after x (v.inbox x) e fw [] []).Inv N key := by
  obtain ⟨h₁, rfl⟩ : ∃ h₁, e = some (.handshake h₁) := by cases he <;> exact ⟨_, rfl⟩
  rcases hi with ⟨pending, hph, hst⟩ | hd
  · have hr : ∀ s, v.received s <+: v.submitted s := fun s => hst s ▸ List.prefix_append _ _
    cases hph with
    | idle ha hb ha' hb' =>
      have hxo : v.entry x.other = none := by cases x <;> assumption
      have hin : ∀ s, v.inbox s = [] := fun s => by cases s <;> assumption
      cases he with
      | sent hw =>
        exact .inl ⟨_, .initiated x hw (by simp) (by simp [hxo]) (by simp [hin]) (by simp [hin]),
          steady_after _ hst (by simp) (by simp)⟩
      | failed h₀ =>
        refine .inr ⟨⟨x, by simp⟩, ⟨x, by simp⟩, fun s m hm => ?_, received_le_after hr rfl⟩
        rcases Side.eq_or_eq_other s x with rfl | rfl <;> simp [hin] at hm
    | initiated s hw h₁ h₂ hin hin' =>
      rcases Side.eq_or_eq_other s x with rfl | rfl
      · simp [hx] at h₁
      · simp only [Side.other_other] at hin'
        refine .inr (Dead.initiates hx he (by simp [h₁]) (fun m hm => ?_) (by simp [hin]) hr)
        rw [hin'] at hm
        obtain rfl := List.mem_singleton.1 hm
        exact .inl ⟨_, _, rfl, by simp⟩
    | responded s _ _ _ _ h₁ h₂ => rcases Side.eq_or_eq_other s x with rfl | rfl <;> simp_all
    | connected hent => simp [hent x] at hx
  · exact .inr (hd.connectPeer hx he)

/-- `seal` on an entry, keeping it or advancing it in transport mode, keeps the invariant. -/
theorem Inv.seals (hi : v.Inv N key) (hs : Seals N (key x) (v.entry x) e fw evs) :
    (v.after x (v.inbox x) e fw [] evs).Inv N key := by
  generalize he : v.entry x = e₀ at hs
  cases hs with
  | keep => rwa [← he, after_self]
  | advance hs hp => exact hi.advance he hs hp

variable {codec : Codec} {o : ClientOptions} {c c' : Client H T} {sent : List RequestMessage}

/-- A facade call of `x` keeps the invariant. -/
theorem Inv.call {call : Call} {r : Except Error Unit} (hi : v.Inv N key) (hc : c.peers (key x.other) = v.entry x)
    (h : call.run N codec o c = .returns c' sent r) :
    (v.after x (v.inbox x) (c'.peers (key x.other)) (deliveredTo (key x) (key x.other) sent) []
      (submission (call.relayedAs (key x)) (deliveredTo (key x) (key x.other) sent))).Inv N key := by
  rcases Call.run_channel (key x) (key x.other) h with hs | ⟨hn, hsub, hin⟩
  · exact hi.seals (hc ▸ hs)
  · exact hsub ▸ hi.initiates (hc ▸ hn) hin

/-- `seal` in a dead channel leaves it dead. -/
theorem Dead.seals (hd : v.Dead key) (hs : Seals N (key x) (v.entry x) e fw evs) :
    (v.after x (v.inbox x) e fw [] evs).Dead key := by
  generalize he : v.entry x = e₀ at hs
  cases hs with
  | keep => rwa [← he, after_self]
  | advance hs _ => exact hd.advance he hs

/-- A facade call in a dead channel leaves it dead. -/
theorem Dead.call {call : Call} {r : Except Error Unit} (hd : v.Dead key) (hc : c.peers (key x.other) = v.entry x)
    (h : call.run N codec o c = .returns c' sent r) :
    (v.after x (v.inbox x) (c'.peers (key x.other)) (deliveredTo (key x) (key x.other) sent) []
      (submission (call.relayedAs (key x)) (deliveredTo (key x) (key x.other) sent))).Dead key := by
  rcases Call.run_channel (key x) (key x.other) h with hs | ⟨hn, hsub, hin⟩
  · exact hd.seals (hc ▸ hs)
  · exact hsub ▸ hd.connectPeer (hc ▸ hn) hin

/-! ### Deliveries -/

variable {m : ResponseMessage} {r : Except Error (Option Event)}

/-- Refusing the head of its inbox, a client of a dead channel leaves it dead. -/
theorem Dead.drop (hd : v.Dead key) (hm : v.inbox x = m :: rest) :
    (v.after x rest (v.entry x) [] [] []).Dead key := by
  refine ⟨by simpa using hd.present, by simpa using hd.closed, fun s m' hm' => ?_, received_le_after hd.received_le rfl⟩
  rw [after_entry_keep]
  rcases Side.eq_or_eq_other s x with rfl | rfl
  · exact hd.inert s m' (by simp_all)
  · exact hd.inert _ m' (by simpa using hm')

/-- Whatever is in flight in a dead channel is refused: the entry stays, nothing is sent and nothing yielded. -/
theorem Dead.refuses (hd : v.Dead key) (hm : v.inbox x = m :: rest) (hc : c.peers (key x.other) = v.entry x)
    (h : EventLoop.handleIncomingMessage N codec o c m = .returns c' sent r) :
    c'.peers (key x.other) = v.entry x ∧ sent = [] ∧ (yielded r).filterMap (fromPeer (key x.other)) = [] := by
  obtain ⟨c₁, e, he, hp⟩ := Inert.refused N codec o
    (hc ▸ hd.inert x m (hm ▸ List.mem_cons_self _ _))
  rw [he] at h
  cases h
  exact ⟨hp.trans hc, rfl, rfl⟩

/-- A delivery in a dead channel leaves it dead. -/
theorem Dead.deliver (hd : v.Dead key) (hm : v.inbox x = m :: rest) (hc : c.peers (key x.other) = v.entry x)
    (h : EventLoop.handleIncomingMessage N codec o c m = .returns c' sent r) :
    (v.after x rest (c'.peers (key x.other)) (deliveredTo (key x) (key x.other) sent)
      ((yielded r).filterMap (fromPeer (key x.other))) []).Dead key := by
  obtain ⟨hp, rfl, hy⟩ := hd.refuses hm hc h
  simpa [hp, hy] using hd.drop hm

/-- The responder answers the first handshake message: the channel goes to `responded`, or dead if it fails. -/
theorem Inv.answer {h₀ h₁ : H} {len : Nat} {buf : Bytes} (hst : ∀ s, v.received s ++ [] = v.submitted s)
    (hw : N.handshakeWrite h₀ [] (zeros 1024) = .ok (len, buf, h₁)) (hxo : v.entry x.other = some (.handshake h₁))
    (hx : v.entry x = none) (hin : v.inbox x.other = [])
    (h : EventLoop.handleIncomingMessage N codec o c
      (.transparent (.peerHandshake (key x.other) (.initiator len buf))) = .returns c' sent r)
    (hc : c.peers (key x.other) = v.entry x) :
    (v.after x [] (c'.peers (key x.other)) (deliveredTo (key x) (key x.other) sent)
      ((yielded r).filterMap (fromPeer (key x.other))) []).Inv N key := by
  rcases EventLoop.handleIncomingMessage_initiator h with ⟨hr, len', payload, tr, hresp, hc', rfl, rfl⟩ |
    ⟨rfl, rfl, e, rfl⟩
  · refine .inl ⟨_, .responded x.other hw hresp (.refl tr) (fun _ => id) (by simpa using hxo) (by simpa using hc')
      (by simp [hin]) (by simp), steady_after _ hst ?_ ?_⟩ <;> simp [yielded]
  · rw [hc]
    refine .inr ⟨⟨x.other, by simp [hxo]⟩, ⟨x, by simp [hx]⟩, fun s m hm => ?_, ?_⟩
    · rcases Side.eq_or_eq_other s x with rfl | rfl <;> simp [hin] at hm
    · exact received_le_after (fun s => hst s ▸ List.prefix_append _ _) (by simp [yielded, fromPeer])

/-- The initiator completes on the answer: the channel is connected, what the responder sealed since still in
flight to the initiator; or, if completing fails, the initiator's entry is gone and the channel dead. -/
theorem Inv.complete {h₀ h₁ hr : H} {len len' : Nat} {buf payload : Bytes} {tr u : T}
    (hst : ∀ s, v.received s ++ Function.update (fun _ => []) x evs s = v.submitted s)
    (hw : N.handshakeWrite h₀ [] (zeros 1024) = .ok (len, buf, h₁))
    (hresp : EventLoop.respond N hr (buf.take len) = .ok (len', payload, tr))
    (hsl : Sealed N (key x.other) tr u rest evs) (hpr : ∀ y, N.Paired y tr → N.Paired y u)
    (hx : v.entry x = some (.handshake h₁)) (hxo : v.entry x.other = some (.transport u)) (hin : v.inbox x.other = [])
    (h : EventLoop.handleIncomingMessage N codec o c
      (.transparent (.peerHandshake (key x.other) (.responder len' payload))) = .returns c' sent r)
    (hc : c.peers (key x.other) = v.entry x) :
    (v.after x rest (c'.peers (key x.other)) (deliveredTo (key x) (key x.other) sent)
      ((yielded r).filterMap (fromPeer (key x.other))) []).Inv N key := by
  obtain ⟨rfl, ⟨ti, hcomp, hc', rfl⟩ | ⟨hc', e, rfl⟩⟩ :=
    EventLoop.handleIncomingMessage_responder_handshake (hc.trans hx) h
  · obtain ⟨hit, hti⟩ := paired_of_complete hw hresp hcomp
    refine .inl ⟨_, .connected (t := fun s => if s = x then ti else u) (fun s => ?_) (fun s => ?_),
      steady_after (Function.update (fun _ => []) x evs) hst (by simp [yielded]) (by simp)⟩
    · rcases Side.eq_or_eq_other s x with rfl | rfl <;> simp [hc', hxo]
    · rcases Side.eq_or_eq_other s x with rfl | rfl
      · exact ⟨tr, by simpa using hti, by simpa using hsl⟩
      · exact ⟨ti, by simpa using hpr ti hit, by simpa [hin] using (Sealed.refl ti : Sealed N (key x) ti ti [] [])⟩
  · rw [hc']
    refine .inr ⟨⟨x.other, by simp [hxo]⟩, ⟨x, by simp⟩, fun s m hm => ?_, ?_⟩
    · rcases Side.eq_or_eq_other s x with rfl | rfl
      · obtain ⟨sessionId, envelope, rfl⟩ := hsl.peerMessage m (by simpa using hm)
        exact .inr ⟨sessionId, envelope, rfl, by simp, by simp [hxo]⟩
      · simp [hin] at hm
    · exact received_le_after (fun s => hst s ▸ List.prefix_append _ _) (by simp [yielded, fromPeer])

/-- A client of a connected channel opens the oldest message in flight to it and yields its payload; the
channel stays connected. -/
theorem Inv.receive {t : Side → T} {pending : Side → List Event}
    (hst : ∀ s, v.received s ++ pending s = v.submitted s) (hent : ∀ s, v.entry s = some (.transport (t s)))
    (hflow : ∀ s, Flow N (key s.other) (t s) (t s.other) (v.inbox s) (pending s)) (hm : v.inbox x = m :: rest)
    (hc : c.peers (key x.other) = v.entry x) (h : EventLoop.handleIncomingMessage N codec o c m = .returns c' sent r) :
    (v.after x rest (c'.peers (key x.other)) (deliveredTo (key x) (key x.other) sent)
      ((yielded r).filterMap (fromPeer (key x.other))) []).Inv N key := by
  obtain ⟨t₀, hp₀, hs₀⟩ := hflow x
  rw [hm] at hs₀
  obtain ⟨sessionId, encoding, c₀, broadcast, p, u', evs', rfl, he, hr, hev, t₁, hp₁, hs₁⟩ := hs₀.head hp₀
  rw [EventLoop.handleIncomingMessage_sealed (hc.trans (hent x)) hr he] at h
  cases h
  refine .inl ⟨_, .connected (t := fun s => if s = x then u' else t s) (fun s => ?_) (fun s => ?_),
    steady_after (Function.update pending x evs') hst (by simp [yielded, hev]) (by simp)⟩
  · rcases Side.eq_or_eq_other s x with rfl | rfl <;> simp [hent]
  · rcases Side.eq_or_eq_other s x with rfl | rfl
    · exact ⟨t₁, by simpa using hp₁, by simpa using hs₁⟩
    · obtain ⟨t₂, hp₂, hs₂⟩ := hflow x.other
      simp only [Side.other_other] at hs₂
      exact ⟨t₂, by simpa using hp₂, by simpa using hs₂.read_right hr⟩

/-- Delivering the oldest message the relay forwarded to `x` keeps the invariant. -/
theorem Inv.deliver (hi : v.Inv N key) (hm : v.inbox x = m :: rest) (hc : c.peers (key x.other) = v.entry x)
    (h : EventLoop.handleIncomingMessage N codec o c m = .returns c' sent r) :
    (v.after x rest (c'.peers (key x.other)) (deliveredTo (key x) (key x.other) sent)
      ((yielded r).filterMap (fromPeer (key x.other))) []).Inv N key := by
  rcases hi with ⟨pending, hph, hst⟩ | hd
  · cases hph with
    | idle _ _ ha hb => cases x <;> simp_all
    | initiated s hw h₁ h₂ hin hin' =>
      rcases Side.eq_or_eq_other s x with rfl | rfl
      · simp [hin] at hm
      · simp only [Side.other_other] at h₂ hin'
        obtain ⟨rfl, rfl⟩ := List.cons.inj (hin'.symm.trans hm)
        exact Inv.answer hst hw h₁ h₂ hin h hc
    | responded s hw hresp hsl hpr h₁ h₂ hin hin' =>
      rcases Side.eq_or_eq_other s x with rfl | rfl
      · obtain ⟨rfl, rfl⟩ := List.cons.inj (hin.symm.trans hm)
        exact Inv.complete hst hw hresp hsl hpr h₁ h₂ hin' h hc
      · rw [Side.other_other] at hin'
        simp [hin'] at hm
    | connected hent hflow => exact Inv.receive hst hent hflow hm hc h
  · exact .inr (hd.deliver hm hc h)

/-- A third party's message to `x` leaves the channel as it is. -/
theorem Inv.third (hi : v.Inv N key) (hk : m.peerKey ≠ some (key x.other)) (hc : c.peers (key x.other) = v.entry x)
    (h : EventLoop.handleIncomingMessage N codec o c m = .returns c' sent r) :
    (v.after x (v.inbox x) (c'.peers (key x.other)) (deliveredTo (key x) (key x.other) sent)
      ((yielded r).filterMap (fromPeer (key x.other))) []).Inv N key := by
  obtain ⟨hp, hd, hy⟩ := EventLoop.handleIncomingMessage_third (key x) (key x.other) hk h
  rwa [hp, hd, hy, hc, after_self]

/-! ### Reading the invariant -/

/-- Both clients are in transport mode for each other. -/
def Connected (v : View H T) : Prop := inTransport (v.entry .a) = true ∧ inTransport (v.entry .b) = true

instance (v : View H T) : Decidable v.Connected := instDecidableAnd

theorem Connected.entry (h : v.Connected) : ∀ s, inTransport (v.entry s) = true
  | .a => h.1
  | .b => h.2

theorem Connected.after (h : v.Connected) (he : inTransport e = true) : (v.after x rest e fw got evs).Connected := by
  have : ∀ s, inTransport ((v.after x rest e fw got evs).entry s) = true := fun s => by
    rcases Side.eq_or_eq_other s x with rfl | rfl <;> simp [he, h.entry]
  exact ⟨this .a, this .b⟩

theorem after_entry_eq (he : e = v.entry x) : (v.after x rest e fw got evs).entry = v.entry := he ▸ after_entry_keep ..

theorem Inv.received_le (hi : v.Inv N key) (s : Side) : v.received s <+: v.submitted s := by
  rcases hi with ⟨pending, -, hst⟩ | hd
  · exact hst s ▸ List.prefix_append _ _
  · exact hd.received_le s

/-- Both clients in transport mode: the channel is in the connected phase. -/
theorem Inv.connected (hi : v.Inv N key) (hc : v.Connected) :
    ∃ (t : Side → T) (pending : Side → List Event), (∀ s, v.received s ++ pending s = v.submitted s) ∧
      (∀ s, v.entry s = some (.transport (t s))) ∧
      ∀ s, Flow N (key s.other) (t s) (t s.other) (v.inbox s) (pending s) := by
  rcases hi with ⟨pending, hph, hst⟩ | hd
  · cases hph with
    | idle ha => simpa [ha] using hc.entry .a
    | initiated s _ _ hs => simpa [hs] using hc.entry s.other
    | responded s _ _ _ _ hs => simpa [hs] using hc.entry s
    | connected hent hflow => exact ⟨_, pending, hst, hent, hflow⟩
  · obtain ⟨y, hy⟩ := hd.closed
    simpa [hy] using hc.entry y

/-- While both clients are in transport mode, what a client has not yet yielded of what was submitted to it is
exactly as long as what is in flight to it. -/
theorem Inv.length_inbox (hi : v.Inv N key) (hc : v.Connected) (s : Side) :
    (v.received s).length + (v.inbox s).length = (v.submitted s).length := by
  obtain ⟨t, pending, hst, -, hflow⟩ := hi.connected hc
  obtain ⟨_, _, hs⟩ := hflow s
  rw [← hst s, List.length_append, hs.length_eq]

/-- Nothing left in flight to `x` while the other client is in transport mode: the channel is connected and `x`
has yielded everything submitted to it, or the channel is dead. -/
theorem Inv.drained (hi : v.Inv N key) (hin : v.inbox x = []) (hx : inTransport (v.entry x.other) = true) :
    (v.Connected ∧ v.received x = v.submitted x) ∨ v.Dead key := by
  have : v.Connected ∨ v.Dead key := by
    rcases hi with ⟨pending, hph, -⟩ | hd
    · refine .inl ?_
      cases hph with
      | idle ha hb => cases x <;> simp [Side.other, ha, hb] at hx
      | initiated s _ hs hs' =>
        rcases Side.eq_or_eq_other s x with rfl | rfl
        · simp [hs'] at hx
        · simp [hs] at hx
      | responded s _ _ _ _ hs _ hin' =>
        rcases Side.eq_or_eq_other s x with rfl | rfl
        · simp [hin'] at hin
        · simp [hs] at hx
      | connected hent => exact ⟨by simp [hent], by simp [hent]⟩
    · exact .inr hd
  rcases this with hc | hd
  · exact .inl ⟨hc, (hi.received_le x).eq_of_length (by simpa [hin] using hi.length_inbox hc x)⟩
  · exact .inr hd

/-- Both entries in handshake mode: the channel is dead. -/
theorem Inv.dead {ha hb : H} (hi : v.Inv N key) (hea : v.entry .a = some (.handshake ha))
    (heb : v.entry .b = some (.handshake hb)) : v.Dead key := by
  have he : ∀ s, ∃ h, v.entry s = some (.handshake h) := fun s => by cases s; exacts [⟨_, hea⟩, ⟨_, heb⟩]
  rcases hi with ⟨pending, hph, -⟩ | hd
  · exfalso
    cases hph with
    | idle ha' => simp [ha'] at hea
    | initiated s _ _ hs => obtain ⟨h, h'⟩ := he s.other; simp [hs] at h'
    | responded s _ _ _ _ _ hs => obtain ⟨h, h'⟩ := he s.other; simp [hs] at h'
    | connected hent => obtain ⟨h, h'⟩ := he .a; simp [hent] at h'
  · exact hd

/-- In a live phase, everything in flight to a client is what the other client emitted. -/
theorem Phase.emitted {pending : Side → List Event} (hph : v.Phase N key pending) :
    ∀ s, ∀ m ∈ v.inbox s, Emitted (key s.other) m := by
  intro s m hm
  cases hph with
  | idle ha hb ha' hb' => cases s <;> simp_all
  | initiated x hw _ _ hin hin' =>
    rcases Side.eq_or_eq_other s x with rfl | rfl
    · simp [hin] at hm
    · simp only [Side.other_other, hin', List.mem_singleton] at hm ⊢
      exact hm ▸ emitted_initiator (key x) hw
  | responded x hw hresp hsl _ _ _ hin hin' =>
    rcases Side.eq_or_eq_other s x with rfl | rfl
    · rw [hin] at hm
      rcases List.mem_cons.1 hm with rfl | hm
      · exact emitted_responder _ hresp
      · exact hsl.emitted m hm
    · simp [hin'] at hm
  | connected _ hflow =>
    obtain ⟨_, _, hs⟩ := hflow s
    exact hs.emitted m hm

/-- The oldest message in flight to a client does not make its dispatch panic. -/
theorem Inv.not_panic (hi : v.Inv N key) (hm : v.inbox x = m :: rest) (hc : c.peers (key x.other) = v.entry x) :
    ¬ (EventLoop.handleIncomingMessage N codec o c m).IsPanic := by
  have hmem : m ∈ v.inbox x := hm ▸ List.mem_cons_self _ _
  rcases hi with ⟨pending, hph, -⟩ | hd
  · exact (hph.emitted x m hmem).not_panic
  · obtain ⟨c', e, he, -⟩ := Inert.refused N codec o (hc ▸ hd.inert x m hmem)
    rw [he]
    exact id

end View

variable {N key}

/-- The invariant holds in every reachable state of a link: whatever the interleaving of the two clients' calls
and dispatches, the relay's deliveries and third parties' traffic, each step keeps it. -/
theorem Link.Reachable.inv {codec : Codec} {opts : Side → ClientOptions} {l : Link H T}
    (hl : l.Reachable N codec opts key) : (l.view key).Inv N key := by
  induction hl with
  | @init c hc =>
    have he : ∀ s, (Link.start c).entry key s = none := fun s => by
      obtain ⟨status, text, hn⟩ := hc s
      obtain ⟨_, hs⟩ := new_eq_ok hn
      simp [Link.entry, Link.start, hs]
    exact .inl ⟨_, .idle (he .a) (he .b) rfl rfl, fun _ => rfl⟩
  | step mv _ hs ih =>
    cases mv with
    | call x c =>
      obtain ⟨c', sent, r, hc, hv⟩ := Link.step_call_view hs
      rw [hv]
      exact ih.call rfl hc
    | deliver x =>
      obtain ⟨m, rest, c', sent, r, hm, hd, hv⟩ := Link.step_deliver_view hs
      rw [hv]
      exact ih.deliver hm rfl hd
    | third x m =>
      obtain ⟨c', sent, r, hk, hd, hv⟩ := Link.step_third_view hs
      rw [hv]
      exact ih.third hk rfl hd

section Seals

variable {sender : Bytes} {e₀ e : Option (ProtocolState H T)} {ms : List ResponseMessage} {evs : List Event}

theorem Seals.inTransport {t : T} (h : Seals N sender e₀ e ms evs) (he : e₀ = some (.transport t)) :
    inTransport e = true := by
  subst he
  cases h <;> rfl

theorem Seals.eq_of_handshake {h₀ : H} (h : Seals N sender e₀ e ms evs) (he : e₀ = some (.handshake h₀)) : e = e₀ := by
  subst he
  cases h; rfl

end Seals

namespace Link

variable {codec : Codec} {opts : Side → ClientOptions} {l l' : Link H T}

/-- A property that every step keeps holds along every run. -/
theorem steps_preserve {P : Link H T → Prop}
    (hP : ∀ {l l' : Link H T} {mv : Move}, P l → l.step N codec opts key mv = some l' → P l') :
    ∀ {mvs : List Move} {l l' : Link H T}, P l → l.steps N codec opts key mvs = some l' → P l'
  | [], _, _, hp, hs => by cases hs; exact hp
  | mv :: mvs, _, _, hp, hs => by
    obtain ⟨l₁, h₁, h₂⟩ := Option.bind_eq_some.1 hs
    exact steps_preserve hP (hP hp h₁) h₂

/-- A property that every step from a reachable link keeps holds along every run from a reachable link. -/
theorem Reachable.steps_preserve {P : Link H T → Prop}
    (hP : ∀ {l l' : Link H T} {mv : Move}, l.Reachable N codec opts key → P l → l.step N codec opts key mv = some l' →
      P l')
    {mvs : List Move} {l l' : Link H T} (hl : l.Reachable N codec opts key) (hp : P l)
    (h : l.steps N codec opts key mvs = some l') : P l' :=
  (Link.steps_preserve (P := fun l => l.Reachable N codec opts key ∧ P l)
    (fun hp h => ⟨hp.1.step _ h, hP hp.1 hp.2 h⟩) ⟨hl, hp⟩ h).2

/-- A message of a third party changes nothing of the channel. -/
theorem step_third_eq {x : Side} {m : ResponseMessage} (h : l.step N codec opts key (.third x m) = some l') :
    l'.view key = l.view key := by
  obtain ⟨c', sent, r, hk, hd, hv⟩ := step_third_view h
  obtain ⟨hp, hf, hy⟩ := EventLoop.handleIncomingMessage_third (key x) (key x.other) hk hd
  rw [hv, hp, hf, hy]
  exact View.after_self ..

/-- Delivering to `s` is enabled when something is in flight to it whose dispatch does not panic. -/
theorem step_deliver_of_not_panic {s : Side} {m : ResponseMessage} {rest : List ResponseMessage}
    (hm : l.inbox s = m :: rest) (h : ¬ (EventLoop.handleIncomingMessage N codec (opts s) (l.run s).client m).IsPanic) :
    ∃ l', l.step N codec opts key (.deliver s) = some l' := by
  rcases ho : EventLoop.handleIncomingMessage N codec (opts s) (l.run s).client m with ⟨c', sent, r⟩ | msg
  · simp [step, hm, act, Action.run, ho]
  · exact absurd (.of_eq ho) h

/-- A delivery to `x` leaves the other client's entry. -/
theorem step_deliver_entry_other {x : Side} (h : l.step N codec opts key (.deliver x) = some l') :
    l'.entry key x.other = l.entry key x.other := by
  obtain ⟨m, rest, c', sent, r, -, -, hv⟩ := step_deliver_view h
  show (l'.view key).entry x.other = (l.view key).entry x.other
  rw [hv, View.after_entry_other]

/-- Delivering to `x` everything in flight to it, one message at a time: every delivery is enabled, and a
property every delivery to `x` keeps holds at the end, where nothing is left in flight to `x` and what was
submitted to `x` is unchanged. -/
theorem Reachable.drain {P : Link H T → Prop} (x : Side)
    (hP : ∀ {l l' : Link H T}, l.Reachable N codec opts key → P l → l.step N codec opts key (.deliver x) = some l' →
      P l')
    (hl : l.Reachable N codec opts key) (hp : P l) :
    ∃ l', l.steps N codec opts key (List.replicate (l.inbox x).length (.deliver x)) = some l' ∧
      l'.Reachable N codec opts key ∧ P l' ∧ l'.inbox x = [] ∧ l'.submitted x = l.submitted x := by
  generalize hn : (l.inbox x).length = n
  induction n generalizing l with
  | zero => exact ⟨l, rfl, hl, hp, List.length_eq_zero.1 hn, rfl⟩
  | succ n ih =>
    obtain ⟨m, rest, hm⟩ := List.exists_cons_of_length_eq_add_one hn
    obtain ⟨l₁, h₁⟩ := step_deliver_of_not_panic hm (hl.inv.not_panic hm rfl)
    obtain ⟨m', rest', c', sent, r, hm', -, hv⟩ := step_deliver_view h₁
    obtain ⟨rfl, rfl⟩ := List.cons.inj (hm.symm.trans hm')
    have hin : l₁.inbox x = rest := by simpa [Link.view] using congrArg (fun v => v.inbox x) hv
    have hsub : l₁.submitted x = l.submitted x := by simpa [Link.view] using congrArg (fun v => v.submitted x) hv
    obtain ⟨l', hs', hl', hp', he', hsub'⟩ := ih (hl.step _ h₁) (hP hl hp h₁) (by simpa [hin, hm] using hn)
    exact ⟨l', by rw [List.replicate_succ, steps_cons, h₁]; exact hs', hl', hp', he', hsub'.trans hsub⟩

/-- A step keeps both clients in transport mode: sealing advances an entry in transport mode, and what is in
flight on a connected channel is sealed messages, which the receiver opens. -/
theorem step_connected (hl : l.Reachable N codec opts key) (hc : (l.view key).Connected) {mv : Move}
    (h : l.step N codec opts key mv = some l') : (l'.view key).Connected := by
  obtain ⟨t, pending, -, hent, hflow⟩ := hl.inv.connected hc
  cases mv with
  | call x c =>
    obtain ⟨c', sent, r, hr, hv⟩ := step_call_view h
    rw [hv]
    refine hc.after ?_
    rcases Call.run_channel (key x) (key x.other) hr with hs | ⟨hn, -⟩
    · exact hs.inTransport (hent x)
    · exact absurd (hn.symm.trans (hent x)) (by simp)
  | deliver x =>
    obtain ⟨m, rest, c', sent, r, hm, hd, hv⟩ := step_deliver_view h
    obtain ⟨t₀, hp₀, hs₀⟩ := hflow x
    rw [show (l.view key).inbox x = m :: rest from hm] at hs₀
    obtain ⟨sessionId, encoding, c₀, broadcast, p, u', evs', rfl, he, hr, -⟩ := hs₀.head hp₀
    rw [EventLoop.handleIncomingMessage_sealed (c := (l.run x).client) (hent x) hr he] at hd
    cases hd
    rw [hv]
    exact hc.after (by simp)
  | third x m =>
    obtain ⟨c', sent, r, hk, hd, hv⟩ := step_third_view h
    rw [hv, (EventLoop.handleIncomingMessage_third (key x) (key x.other) hk hd).1]
    exact hc.after (hc.entry x)

/-- Both entries in handshake mode: no step changes either. A call seals nothing on an entry in handshake mode
and `connect_peer` refuses a present entry; what is in flight is refused. -/
theorem step_stuck (hl : l.Reachable N codec opts key) {ha hb : H} (hea : l.entry key .a = some (.handshake ha))
    (heb : l.entry key .b = some (.handshake hb)) {mv : Move} (h : l.step N codec opts key mv = some l') :
    l'.entry key = l.entry key := by
  have hd : (l.view key).Dead key := hl.inv.dead hea heb
  show (l'.view key).entry = (l.view key).entry
  cases mv with
  | call x c =>
    obtain ⟨c', sent, r, hr, hv⟩ := step_call_view h
    obtain ⟨h₀, hx⟩ : ∃ h₀, l.entry key x = some (.handshake h₀) := by cases x; exacts [⟨_, hea⟩, ⟨_, heb⟩]
    rw [hv]
    rcases Call.run_channel (key x) (key x.other) hr with hs | ⟨hn, -⟩
    · exact View.after_entry_eq (hs.eq_of_handshake hx)
    · exact absurd (hn.symm.trans hx) (by simp)
  | deliver x =>
    obtain ⟨m, rest, c', sent, r, hm, hdl, hv⟩ := step_deliver_view h
    rw [hv]
    exact View.after_entry_eq (hd.refuses hm rfl hdl).1
  | third x m => rw [step_third_eq h]

/-- A step of a dead channel keeps it dead, and neither client yields anything of the other's messages. -/
theorem step_dead (hd : (l.view key).Dead key) {mv : Move} (h : l.step N codec opts key mv = some l') :
    (l'.view key).Dead key ∧ (l'.view key).received = (l.view key).received := by
  cases mv with
  | call x c =>
    obtain ⟨c', sent, r, hr, hv⟩ := step_call_view h
    rw [hv]
    exact ⟨hd.call rfl hr, View.after_received_nil ..⟩
  | deliver x =>
    obtain ⟨m, rest, c', sent, r, hm, hdl, hv⟩ := step_deliver_view h
    rw [hv]
    refine ⟨hd.deliver hm rfl hdl, ?_⟩
    rw [(hd.refuses hm rfl hdl).2.2]
    exact View.after_received_nil ..
  | third x m =>
    rw [step_third_eq h]
    exact ⟨hd, rfl⟩

end Link

/-! ### Links of the reference clients -/

/-- The reference client `[1]` is side `a` of the link, `[2]` side `b`. -/
def referenceId : Side → UInt8
  | .a => 1
  | .b => 2

/-- The key of the reference client on each side. -/
def referenceKey (s : Side) : Bytes := [referenceId s]

/-- The options of the reference client on each side. -/
def referenceLinkOptions (s : Side) : ClientOptions := referenceOptions (referenceId s)

/-- The two reference clients just after `NativeClient::new`. -/
def referenceLinkStart : Link Noise.Reference.Handshake Noise.Reference.Transport :=
  Link.start fun s => (referenceStart (referenceId s)).client

/-- The link of the reference clients after `mvs` (its start if a move fails). -/
def referenceLink (mvs : List Link.Move) : Link Noise.Reference.Handshake Noise.Reference.Transport :=
  (referenceLinkStart.steps Noise.reference Codec.silent referenceLinkOptions referenceKey mvs).getD
    referenceLinkStart

theorem reachable_referenceLink (mvs : List Link.Move)
    (h : (referenceLinkStart.steps Noise.reference Codec.silent referenceLinkOptions referenceKey mvs).isSome) :
    (referenceLink mvs).Reachable Noise.reference Codec.silent referenceLinkOptions referenceKey := by
  obtain ⟨l, hl⟩ := Option.isSome_iff_exists.1 h
  have h₀ : referenceLinkStart.Reachable Noise.reference Codec.silent referenceLinkOptions referenceKey :=
    .init fun s => ⟨101, "", by cases s <;> rfl⟩
  simpa [referenceLink, hl] using h₀.steps hl

/-- `[1]` opens the channel to `[2]`, which answers, and `[1]` completes. -/
def referenceConnect : List Link.Move := [.call .a (.connectPeer [2]), .deliver .b, .deliver .a]

/-- Then `[1]` sends `[2]` a blob, still in flight. -/
def referenceSend : List Link.Move := referenceConnect ++ [.call .a (.sendBlob [2] [5] none)]

/-- Both open the channel to each other before either answers. -/
def referenceRace : List Link.Move := [.call .a (.connectPeer [2]), .call .b (.connectPeer [1])]

/-! ### What the invariant gives over whole runs -/

section Runs

variable {codec : Codec} {opts : Side → ClientOptions}

/-- Dispatching what the relay forwarded from the other client never makes an event loop panic: the oldest
message in flight to a client can always be delivered. -/
theorem forwarded_never_aborts {l : Link H T} (hl : l.Reachable N codec opts key) (s : Side) (hs : l.inbox s ≠ []) :
    ∃ l', l.step N codec opts key (.deliver s) = some l' := by
  obtain ⟨m, rest, hm⟩ := List.exists_cons_of_ne_nil hs
  exact Link.step_deliver_of_not_panic hm (hl.inv.not_panic hm rfl)

set_option maxRecDepth 20000 in
theorem forwarded_never_aborts_reference : (referenceLink referenceSend).inbox .b ≠ [] ∧
    ∃ l', (referenceLink referenceSend).step Noise.reference Codec.silent referenceLinkOptions referenceKey
      (.deliver .b) = some l' :=
  ⟨by decide, forwarded_never_aborts (reachable_referenceLink referenceSend rfl) .b (by decide)⟩

/-- Once both clients are in transport mode for each other, they stay so along every run. -/
theorem connected_stays {l l' : Link H T} (hl : l.Reachable N codec opts key) (hc : (l.view key).Connected)
    {mvs : List Link.Move} (h : l.steps N codec opts key mvs = some l') : (l'.view key).Connected :=
  Link.Reachable.steps_preserve (fun hl hc h => Link.step_connected hl hc h) hl hc h

set_option maxRecDepth 20000 in
theorem connected_stays_reference : ((referenceLink referenceConnect).view referenceKey).Connected ∧
    ∀ mvs l', (referenceLink referenceConnect).steps Noise.reference Codec.silent referenceLinkOptions referenceKey
      mvs = some l' → (l'.view referenceKey).Connected :=
  ⟨by decide, fun _ _ h => connected_stays (reachable_referenceLink referenceConnect rfl) (by decide) h⟩

/-- If both clients start the handshake before either answers, both entries stay in handshake mode forever:
every run from there leaves them as they are. -/
theorem simultaneous_open_stuck {l l' : Link H T} (hl : l.Reachable N codec opts key) {ha hb : H}
    (hea : l.entry key .a = some (.handshake ha)) (heb : l.entry key .b = some (.handshake hb)) {mvs : List Link.Move}
    (h : l.steps N codec opts key mvs = some l') : l'.entry key = l.entry key :=
  Link.Reachable.steps_preserve (P := fun l₁ => l₁.entry key = l.entry key)
    (fun hl₁ he h₁ => (Link.step_stuck hl₁ ((congrFun he .a).trans hea) ((congrFun he .b).trans heb) h₁).trans he)
    hl rfl h

set_option maxRecDepth 20000 in
theorem simultaneous_open_stuck_reference :
    (referenceLink referenceRace).entry referenceKey .a = some (.handshake ⟨true, [1], [2], 1⟩) ∧
      (referenceLink referenceRace).entry referenceKey .b = some (.handshake ⟨true, [2], [1], 1⟩) ∧
      ∀ mvs l', (referenceLink referenceRace).steps Noise.reference Codec.silent referenceLinkOptions referenceKey mvs =
        some l' → l'.entry referenceKey = (referenceLink referenceRace).entry referenceKey :=
  have hea : (referenceLink referenceRace).entry referenceKey .a = some (.handshake ⟨true, [1], [2], 1⟩) := by decide
  have heb : (referenceLink referenceRace).entry referenceKey .b = some (.handshake ⟨true, [2], [1], 1⟩) := by decide
  ⟨hea, heb, fun _ _ h => simultaneous_open_stuck (reachable_referenceLink referenceRace rfl) hea heb h⟩

/-- Traffic with third parties leaves the channel between the two clients exactly as it is: messages of other
peers or of the server, dispatched by either client in any number, change neither client's entry for the other,
put nothing in flight between them and yield nothing from the other client. -/
theorem third_party_isolated {l l' : Link H T} {mvs : List Link.Move}
    (hmv : ∀ mv ∈ mvs, ∃ x m, mv = .third x m) (h : l.steps N codec opts key mvs = some l') :
    l'.view key = l.view key := by
  induction mvs generalizing l with
  | nil => cases h; rfl
  | cons mv mvs ih =>
    obtain ⟨l₁, h₁, h₂⟩ := Option.bind_eq_some.1 h
    obtain ⟨x, m, rfl⟩ := hmv _ (List.mem_cons_self _ _)
    rw [ih (fun mv hm => hmv mv (List.mem_cons_of_mem _ hm)) h₂, Link.step_third_eq h₁]

/-- A peer message from `[3]`, a third party of the link. -/
def referenceThird : ResponseMessage := .opaqueMessage (.peerMessage [3] none ⟨0, .blob, [], false⟩)

set_option maxRecDepth 20000 in
theorem third_party_isolated_reference :
    ((referenceLink referenceSend).steps Noise.reference Codec.silent referenceLinkOptions referenceKey
      [.third .b referenceThird, .third .a referenceThird]).isSome ∧
    ∀ l', (referenceLink referenceSend).steps Noise.reference Codec.silent referenceLinkOptions referenceKey
      [.third .b referenceThird, .third .a referenceThird] = some l' →
      l'.view referenceKey = (referenceLink referenceSend).view referenceKey :=
  ⟨by decide, fun _ h => third_party_isolated (by simp) h⟩

/-- Once the channel is dead (after a simultaneous open, or a failure of the library during the handshake), it
stays dead along every run, and neither client yields another message of the other. -/
theorem dead_channel_silent {l l' : Link H T} (hd : (l.view key).Dead key) {mvs : List Link.Move}
    (h : l.steps N codec opts key mvs = some l') : (l'.view key).Dead key ∧ l'.received key = l.received key :=
  Link.steps_preserve (P := fun l₁ => (l₁.view key).Dead key ∧ l₁.received key = l.received key)
    (fun hp h₁ => ⟨(Link.step_dead hp.1 h₁).1, (Link.step_dead hp.1 h₁).2.trans hp.2⟩) ⟨hd, rfl⟩ h

set_option maxRecDepth 20000 in
theorem dead_channel_silent_reference : ((referenceLink referenceRace).view referenceKey).Dead referenceKey ∧
    ∀ mvs l', (referenceLink referenceRace).steps Noise.reference Codec.silent referenceLinkOptions referenceKey mvs =
      some l' → (l'.view referenceKey).Dead referenceKey ∧
        l'.received referenceKey = (referenceLink referenceRace).received referenceKey :=
  have hd := (reachable_referenceLink referenceRace rfl).inv.dead
    (by decide : (referenceLink referenceRace).entry referenceKey .a = some (.handshake ⟨true, [1], [2], 1⟩))
    (by decide : (referenceLink referenceRace).entry referenceKey .b = some (.handshake ⟨true, [2], [1], 1⟩))
  ⟨hd, fun _ _ h => dead_channel_silent hd h⟩

/-- `[2]` has answered `[1]`'s first handshake message and sent `[1]` a blob before `[1]` completed. -/
def referenceEarly : List Link.Move := [.call .a (.connectPeer [2]), .deliver .b, .call .b (.sendBlob [1] [6] none)]

end Runs

end RelayClient
