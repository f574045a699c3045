import RelayClient.EventLoop

/-!
# Runs of the client

A run starts from `NativeClient::new` and takes steps of two kinds in any order: a facade call made through any
clone, and a dispatch by the event loop of any decoded message, well formed or not. It records the shared state,
the requests sent on the outbound queue and the items yielded on the event stream. A step that panics ends the
run: the event loop's task, or the caller's, is gone.

* (connected before messages) every message event on the stream is preceded by the connection event of its
  channel (`message_preceded_by_connected`), from the invariant that an open channel has been announced;
* (the server slot) a failed server handshake empties the slot for good, after which every server request and
  every server envelope hits `unreachable!()` (`server_slot_emptied`); still, `ServerConnected` is yielded at
  most once (`server_connected_at_most_once`), since nothing puts the slot back into handshake mode;
* (the registry) a responder message for a peer in transport mode removes the peer (`peer_entry_removed`).
-/

namespace RelayClient

variable {H T : Type} (N : Noise H T) (codec : Codec) (opts : ClientOptions)

/-- A step of a run. -/
inductive Action
  | call (c : Call)
  | dispatch (message : ResponseMessage)

/-- The state of a run: the shared state, the requests sent on the outbound queue in order, and the items
the event stream has yielded in order. -/
structure Run (H T : Type) where
  client : Client H T
  outbound : List RequestMessage
  events : List (Except Error Event)

/-- The items the event loop yields for the result of a dispatch. -/
def yielded : Except Error (Option Event) → List (Except Error Event)
  | .ok (some ev) => [.ok ev]
  | .ok none => []
  | .error e => [.error e]

/-- What a step does to the shared state; a facade call yields nothing. -/
def Action.run (c : Client H T) : Action → Outcome (Client H T) (Option Event)
  | .call k => (k.run N codec opts c).map fun _ => none
  | .dispatch m => EventLoop.handleIncomingMessage N codec opts c m

/-- The items a step puts on the event stream: a dispatch its result, a facade call nothing (its result goes
to its caller). -/
def Action.yields : Action → Except Error (Option Event) → List (Except Error Event)
  | .call _, _ => []
  | .dispatch _, r => yielded r

/-- One step of a run, `none` when it panics. -/
def Run.step (s : Run H T) (a : Action) : Option (Run H T) :=
  match a.run N codec opts s.client with
  | .returns c sent r => some ⟨c, s.outbound ++ sent, s.events ++ a.yields r⟩
  | .panics _ => none

/-- The runs of a client from `NativeClient::new`. -/
inductive Reachable : Run H T → Prop
  | init {c : Client H T} {status : Nat} {text : String} :
      NativeClient.new N opts status text = .ok c → Reachable ⟨c, [], []⟩
  | step {s s' : Run H T} (a : Action) : Reachable s → s.step N codec opts a = some s' → Reachable s'

/-- The run after a list of actions, `none` when one of them panics. -/
def Run.steps (s : Run H T) : List Action → Option (Run H T)
  | [] => some s
  | a :: as => (s.step N codec opts a).bind fun s' => s'.steps as

variable {N codec opts}

@[simp] theorem Run.steps_nil (s : Run H T) : s.steps N codec opts [] = some s := rfl

@[simp] theorem Run.steps_cons (s : Run H T) (a : Action) (as : List Action) :
    s.steps N codec opts (a :: as) = (s.step N codec opts a).bind fun s' => s'.steps N codec opts as := rfl

theorem Run.steps_append (s : Run H T) (as bs : List Action) :
    s.steps N codec opts (as ++ bs) = (s.steps N codec opts as).bind fun s' => s'.steps N codec opts bs := by
  induction as generalizing s with
  | nil => rfl
  | cons a as ih => simp only [List.cons_append, steps_cons, ih, Option.bind_assoc]

theorem Reachable.steps {s : Run H T} (h : Reachable N codec opts s) :
    ∀ {as : List Action} {s' : Run H T}, s.steps N codec opts as = some s' → Reachable N codec opts s'
  | [], _, hs => by cases hs; exact h
  | a :: as, s', hs => by
    obtain ⟨s₁, h₁, h₂⟩ := Option.bind_eq_some.1 hs
    exact (h.step a h₁).steps h₂

/-! ### Runs on the reference Noise -/

/-- A codec that encodes every server message to no bytes and decodes nothing. -/
def Codec.silent : Codec := ⟨fun _ => .ok [], fun _ => .error .codec⟩

/-- The options of the client with key `[k]`, for the server with key `[9]`. -/
def referenceOptions (k : UInt8) : ClientOptions := ⟨⟨[k], [k]⟩, [9]⟩

/-- That client's run just after `NativeClient::new`, on the reference Noise. -/
def referenceStart (k : UInt8) : Run Noise.Reference.Handshake Noise.Reference.Transport :=
  ⟨⟨some (.handshake ⟨true, [k], [9], 0⟩), Registry.empty⟩, [], []⟩

/-- That client's run after `actions` (its start if one of them panics). -/
def referenceRun (k : UInt8) (actions : List Action) : Run Noise.Reference.Handshake Noise.Reference.Transport :=
  ((referenceStart k).steps Noise.reference Codec.silent (referenceOptions k) actions).getD (referenceStart k)

theorem reachable_referenceRun (k : UInt8) (actions : List Action)
    (h : ((referenceStart k).steps Noise.reference Codec.silent (referenceOptions k) actions).isSome) :
    Reachable Noise.reference Codec.silent (referenceOptions k) (referenceRun k actions) := by
  have h₀ : Reachable Noise.reference Codec.silent (referenceOptions k) (referenceStart k) :=
    @Reachable.init _ _ _ _ _ _ 101 "" rfl
  unfold referenceRun
  revert h
  cases hs : (referenceStart k).steps Noise.reference Codec.silent (referenceOptions k) actions with
  | none => simp
  | some s => exact fun _ => h₀.steps hs

theorem Run.step_eq_some {s s' : Run H T} {a : Action} (h : s.step N codec opts a = some s') :
    ∃ sent r, a.run N codec opts s.client = .returns s'.client sent r ∧ s'.outbound = s.outbound ++ sent ∧
      s'.events = s.events ++ a.yields r := by
  unfold Run.step at h
  split at h
  · cases h; exact ⟨_, _, by assumption, rfl, rfl⟩
  · cases h

theorem Run.step_call {s s' : Run H T} {k : Call} (h : s.step N codec opts (.call k) = some s') :
    ∃ sent r, k.run N codec opts s.client = .returns s'.client sent r ∧ s'.outbound = s.outbound ++ sent ∧
      s'.events = s.events := by
  obtain ⟨sent, r, hrun, ho, he⟩ := Run.step_eq_some h
  obtain ⟨r', hk, -⟩ := Outcome.map_eq_returns hrun
  exact ⟨sent, r', hk, ho, by simpa [Action.yields] using he⟩

/-- A dispatch that puts an event on the stream is a handler call that returned it. -/
theorem Run.step_dispatch {s s' : Run H T} {m : ResponseMessage} {ev : Event}
    (h : s.step N codec opts (.dispatch m) = some s') (he : s'.events = s.events ++ [.ok ev]) :
    ∃ sent, EventLoop.handleIncomingMessage N codec opts s.client m = .returns s'.client sent (.ok (some ev)) ∧
      s'.outbound = s.outbound ++ sent := by
  obtain ⟨sent, r, hrun, ho, he'⟩ := Run.step_eq_some h
  have hy : yielded r = [.ok ev] := List.append_cancel_left (he'.symm.trans he)
  rcases r with e | (_ | ev')
  · cases hy
  · cases hy
  · cases hy
    exact ⟨sent, hrun, ho⟩

theorem new_eq_ok {status : Nat} {text : String} {c : Client H T} (h : NativeClient.new N opts status text = .ok c) :
    ∃ hs, c = ⟨some (.handshake hs), Registry.empty⟩ := by
  unfold NativeClient.new at h
  split at h
  · split at h
    · cases h
    · cases h; exact ⟨_, rfl⟩
  · cases h

/-! ### Connected before messages -/

/-- The connection event of `ch` is on the stream. -/
def Announced (events : List (Except Error Event)) (ch : Channel) : Prop :=
  ∃ ev, .ok ev ∈ events ∧ ev.announces = some ch

/-- Every message on the stream is preceded by the connection event of its channel. -/
def ConnectedBefore (events : List (Except Error Event)) : Prop :=
  ∀ pre ev post, events = pre ++ .ok ev :: post → ∀ ch, ev.channel = some ch → Announced pre ch

private theorem Announced.append {events : List (Except Error Event)} {ch : Channel} (h : Announced events ch)
    (more : List (Except Error Event)) : Announced (events ++ more) ch :=
  let ⟨ev, hm, ha⟩ := h
  ⟨ev, List.mem_append_left more hm, ha⟩

private theorem ConnectedBefore.snoc {events : List (Except Error Event)} {x : Except Error Event}
    (h : ConnectedBefore events) (hx : ∀ ev, x = .ok ev → ∀ ch, ev.channel = some ch → Announced events ch) :
    ConnectedBefore (events ++ [x]) := by
  intro pre ev post hsplit ch hch
  rcases List.eq_nil_or_concat post with rfl | ⟨L, b, rfl⟩
  · obtain ⟨rfl, hx'⟩ := List.append_inj' hsplit rfl
    exact hx ev (List.singleton_inj.1 hx') ch hch
  · have h2 : events ++ [x] = (pre ++ .ok ev :: L) ++ [b] := by simpa using hsplit
    exact h pre ev L (List.append_inj' h2 rfl).1 ch hch

/-- The invariant behind `message_preceded_by_connected`: every open channel has been announced, and every
message so far followed its channel's announcement. -/
structure AnnouncedInv (s : Run H T) : Prop where
  open_announced : ∀ ch, s.client.isOpen ch → Announced s.events ch
  before : ConnectedBefore s.events

private theorem announcedInv_init {c : Client H T} {status : Nat} {text : String}
    (h : NativeClient.new N opts status text = .ok c) : AnnouncedInv (⟨c, [], []⟩ : Run H T) := by
  obtain ⟨hs, rfl⟩ := new_eq_ok h
  refine ⟨fun ch hch => ?_, fun pre ev post h => by simp at h⟩
  cases ch <;> simp [Client.isOpen] at hch

private theorem announcedInv_step {s s' : Run H T} {a : Action} (hi : AnnouncedInv s) (h : s.step N codec opts a = some s') :
    AnnouncedInv s' := by
  obtain ⟨sent, r, hrun, -, hev⟩ := Run.step_eq_some h
  cases a with
  | call k =>
    obtain ⟨r', hk, -⟩ := Outcome.map_eq_returns hrun
    have hm := Call.keepsModes_of_run hk
    have he : s'.events = s.events := by simpa [Action.yields] using hev
    exact ⟨fun ch hch => he ▸ hi.open_announced ch (by rwa [← hm.isOpen_eq ch]), he ▸ hi.before⟩
  | dispatch m =>
    have ho := EventLoop.handleIncomingMessage_opens hrun
    have hsnoc : ∀ x, yielded r = [x] → ConnectedBefore (s.events ++ [x]) := fun x hx =>
      hi.before.snoc fun ev hxe ch hch =>
        hi.open_announced ch (ho.message ev ch (by cases r with
          | error => cases hx; cases hxe
          | ok o => cases o <;> cases hx; cases hxe; rfl) hch)
    refine ⟨fun ch hch => ?_, ?_⟩
    · rw [hev]
      rcases ho.opened ch hch with hc | ⟨ev, rfl, ha⟩
      · exact (hi.open_announced ch hc).append _
      · exact ⟨ev, by simp [Action.yields, yielded], ha⟩
    · rw [hev]
      rcases r with e | (_ | ev)
      · exact hsnoc _ rfl
      · simpa [Action.yields, yielded] using hi.before
      · exact hsnoc _ rfl

theorem Reachable.announcedInv {s : Run H T} (h : Reachable N codec opts s) : AnnouncedInv s := by
  induction h with
  | init hc => exact announcedInv_init hc
  | step a _ hs ih => exact announcedInv_step ih hs

/-- In every run, a message of a peer on the event stream comes after that peer's `PeerConnected`, and a
session event after a `ServerConnected`. -/
theorem message_preceded_by_connected {s : Run H T} (hs : Reachable N codec opts s)
    {pre post : List (Except Error Event)} {ev : Event} (hsplit : s.events = pre ++ .ok ev :: post) :
    (∀ k, ev.channel = some (.peer k) → .ok (.peerConnected k) ∈ pre) ∧
      (ev.channel = some .server → ∃ key, .ok (.serverConnected key) ∈ pre) := by
  have hb := hs.announcedInv.before pre ev post hsplit
  refine ⟨fun k hk => ?_, fun hk => ?_⟩
  · obtain ⟨e, hm, ha⟩ := hb _ hk
    cases e <;> cases ha
    exact hm
  · obtain ⟨e, hm, ha⟩ := hb _ hk
    cases e <;> cases ha
    exact ⟨_, hm⟩

set_option maxRecDepth 20000 in
theorem message_preceded_by_connected_reference :
    (∀ k, (Event.binaryMessage [1] [7] none).channel = some (.peer k) →
        (.ok (.peerConnected k) : Except Error Event) ∈ [.ok (.peerConnected [1])]) ∧
      ((Event.binaryMessage [1] [7] none).channel = some .server →
        ∃ key, (.ok (.serverConnected key) : Except Error Event) ∈ [.ok (.peerConnected [1])]) :=
  message_preceded_by_connected
    (reachable_referenceRun 2 [.dispatch (.transparent (.peerHandshake [1] (.initiator 1 [1]))),
      .dispatch (.opaqueMessage (.peerMessage [1] none ⟨17, .blob, [7] ++ List.replicate 16 10, false⟩))] (by rfl))
    (by rfl : _ = [.ok (.peerConnected [1])] ++ .ok (.binaryMessage [1] [7] none) :: [])

/-! ### The server slot -/

/-- Once the server channel is in transport mode, any further `ServerHandshake` reply empties the server slot
(`server_handshake` has `take()`n it and returns `NotHandshakeState` without putting it back), and from there
every server request and every server envelope reaches `unreachable!()`. -/
theorem server_slot_emptied {s : Run H T} (hs : Reachable N codec opts s) {t : T}
    (ht : s.client.server = some (.transport t)) (len : Nat) (buf : Bytes) :
    ∃ s', s.step N codec opts (.dispatch (.transparent (.serverHandshake (.responder len buf)))) = some s' ∧
      Reachable N codec opts s' ∧ s'.client.server = none ∧
      (∀ m, NativeClient.request N codec s'.client m = .panics unreachableCode) ∧
      ∀ env, EventLoop.handleIncomingMessage N codec opts s'.client (.opaqueMessage (.serverMessage env)) =
        .panics unreachableCode := by
  have hstep : s.step N codec opts (.dispatch (.transparent (.serverHandshake (.responder len buf)))) =
      some ⟨{ s.client with server := none }, s.outbound, s.events ++ [.error .notHandshakeState]⟩ := by
    simp [Run.step, Action.run, EventLoop.handleIncomingMessage, EventLoop.serverHandshake_transport ht,
      Action.yields, yielded, Except.map]
  exact ⟨_, hstep, hs.step _ hstep, rfl, fun m => rfl, fun env => rfl⟩

set_option maxRecDepth 20000 in
theorem server_slot_emptied_reference :
    let s := referenceRun 1 [.call .connect, .dispatch (.transparent (.serverHandshake (.responder 1 [9])))]
    ∃ s', s.step Noise.reference Codec.silent (referenceOptions 1)
        (.dispatch (.transparent (.serverHandshake (.responder 0 [])))) = some s' ∧
      Reachable Noise.reference Codec.silent (referenceOptions 1) s' ∧ s'.client.server = none ∧
      (∀ m, NativeClient.request Noise.reference Codec.silent s'.client m = .panics unreachableCode) ∧
      ∀ env, EventLoop.handleIncomingMessage Noise.reference Codec.silent (referenceOptions 1) s'.client
        (.opaqueMessage (.serverMessage env)) = .panics unreachableCode :=
  server_slot_emptied (reachable_referenceRun 1 _ (by rfl)) (t := ⟨[1, 9, 0], 0, [1, 9, 1], 0⟩) (by rfl) 0 []

/-- Whether an item of the event stream is `ServerConnected`. -/
def isServerConnected : Except Error Event → Bool
  | .ok (.serverConnected _) => true
  | _ => false

open ProtocolState in
/-- Only a server handshake reply yields `ServerConnected`, and only from a handshake, which it leaves; no
dispatch puts the server slot into handshake mode. -/
private theorem handleIncomingMessage_serverConnected {c c' : Client H T} {m : ResponseMessage}
    {sent : List RequestMessage} {r : Except Error (Option Event)}
    (h : EventLoop.handleIncomingMessage N codec opts c m = .returns c' sent r) :
    (inHandshake c'.server = true → inHandshake c.server = true) ∧
      ∀ key, r = .ok (some (.serverConnected key)) → inHandshake c.server = true ∧ inHandshake c'.server = false := by
  rcases EventLoop.handleIncomingMessage_returns h with ⟨len, buf, r', -, h', rfl⟩ | ⟨k, len, buf, -, h'⟩ |
    ⟨k, len, buf, r', -, h', rfl⟩ | ⟨k, sid, env, r', -, h', rfl⟩ | ⟨env, -, h'⟩
  · obtain ⟨-, -, ⟨hs, t, hc, hc', rfl⟩ | ⟨hc', e, rfl⟩⟩ := EventLoop.serverHandshake_returns h'
    · simp [hc, hc']
    · simp [hc', Except.map]
  · rcases EventLoop.peerHandshakeResponder_returns h' with ⟨-, t, len', payload, rfl, -, rfl⟩ | ⟨rfl, -, e, rfl⟩ <;>
      simp
  · obtain ⟨-, hs, ⟨_, t, -, -, rfl⟩ | ⟨rfl, -, rfl⟩ | ⟨-, e, rfl⟩⟩ := EventLoop.peerHandshakeAck_returns h' <;>
      simp [hs, Except.map]
  · obtain ⟨-, hk, hm⟩ := EventLoop.handleRelayedMessage_returns h'
    refine ⟨fun hh => hk.server_handshake ▸ hh, fun key hr => ?_⟩
    cases r' with
    | error => cases hr
    | ok ev => cases hr; simpa [Event.channel] using (hm _ rfl).2
  · obtain ⟨-, hk, hm⟩ := EventLoop.handleServerMessage_returns h'
    exact ⟨fun hh => hk.server_handshake ▸ hh, fun key hr => by simpa [Event.announces] using (hm _ hr).2.2⟩

open ProtocolState in
/-- The invariant behind `server_connected_at_most_once`: `ServerConnected` has been yielded at most once, and
not while the server channel is still in handshake mode. -/
structure ConnectedOnce (s : Run H T) : Prop where
  at_most_once : s.events.countP isServerConnected ≤ 1
  fresh : inHandshake s.client.server = true → s.events.countP isServerConnected = 0

open ProtocolState in
private theorem connectedOnce_step {s s' : Run H T} {a : Action} (hi : ConnectedOnce s) (h : s.step N codec opts a = some s') :
    ConnectedOnce s' := by
  obtain ⟨sent, r, hrun, -, hev⟩ := Run.step_eq_some h
  cases a with
  | call k =>
    obtain ⟨r', hk, -⟩ := Outcome.map_eq_returns hrun
    have he : s'.events = s.events := by simpa [Action.yields] using hev
    exact ⟨he ▸ hi.at_most_once, fun hh => he ▸ hi.fresh ((Call.keepsModes_of_run hk).server_handshake ▸ hh)⟩
  | dispatch m =>
    obtain ⟨hback, hconn⟩ := handleIncomingMessage_serverConnected hrun
    by_cases hr : ∃ key, r = .ok (some (.serverConnected key))
    · obtain ⟨key, rfl⟩ := hr
      obtain ⟨hh, hh'⟩ := hconn key rfl
      refine ⟨?_, fun h' => by simp [hh'] at h'⟩
      simp [hev, Action.yields, yielded, isServerConnected, hi.fresh hh]
    · have hy : (Action.yields (.dispatch m) r).countP isServerConnected = 0 := by
        rcases r with e | _ | ev
        · rfl
        · rfl
        · cases ev <;> simp_all [Action.yields, yielded, isServerConnected]
      have hc : s'.events.countP isServerConnected = s.events.countP isServerConnected := by
        rw [hev, List.countP_append, hy, Nat.add_zero]
      exact ⟨hc ▸ hi.at_most_once, fun hh => hc ▸ hi.fresh (hback hh)⟩

theorem Reachable.connectedOnce {s : Run H T} (h : Reachable N codec opts s) : ConnectedOnce s := by
  induction h with
  | init _ => exact ⟨by simp, fun _ => by simp⟩
  | step a _ hs ih => exact connectedOnce_step ih hs

/-- `ServerConnected` is yielded at most once in every run: only a server handshake reply yields it, from the
handshake it then leaves, and nothing puts the server slot back into handshake mode. -/
theorem server_connected_at_most_once {s : Run H T} (hs : Reachable N codec opts s) :
    s.events.countP isServerConnected ≤ 1 :=
  hs.connectedOnce.at_most_once

set_option maxRecDepth 20000 in
/-- A second server handshake reply after the first yields an error, not a second `ServerConnected`. -/
theorem server_connected_at_most_once_reference :
    let s := referenceRun 1 [.call .connect, .dispatch (.transparent (.serverHandshake (.responder 1 [9]))),
      .dispatch (.transparent (.serverHandshake (.responder 1 [9])))]
    s.events.countP isServerConnected ≤ 1 ∧ s.events = [.ok (.serverConnected [9]), .error .notHandshakeState] :=
  ⟨server_connected_at_most_once (reachable_referenceRun 1 _ (by rfl)), by rfl⟩

/-! ### The peer registry -/

/-- A `PeerHandshake` responder message for a peer whose channel is in transport mode removes the peer from
the registry (`peer_handshake_ack` has `remove`d it before finding it is not in handshake mode). -/
theorem peer_entry_removed {s : Run H T} (hs : Reachable N codec opts s) {k : Bytes} {t : T}
    (ht : s.client.peers k = some (.transport t)) (len : Nat) (buf : Bytes) :
    ∃ s', s.step N codec opts (.dispatch (.transparent (.peerHandshake k (.responder len buf)))) = some s' ∧
      Reachable N codec opts s' ∧ s'.client.peers k = none ∧ s'.events = s.events ++ [.error .notHandshakeState] := by
  have hstep : s.step N codec opts (.dispatch (.transparent (.peerHandshake k (.responder len buf)))) =
      some ⟨{ s.client with peers := s.client.peers.remove k }, s.outbound,
        s.events ++ [.error .notHandshakeState]⟩ := by
    simp [Run.step, Action.run, EventLoop.handleIncomingMessage, EventLoop.peerHandshakeAck_transport ht,
      Action.yields, yielded, Except.map]
  exact ⟨_, hstep, hs.step _ hstep, by simp, rfl⟩

set_option maxRecDepth 20000 in
theorem peer_entry_removed_reference :
    let s := referenceRun 2 [.dispatch (.transparent (.peerHandshake [1] (.initiator 1 [1])))]
    ∃ s', s.step Noise.reference Codec.silent (referenceOptions 2)
        (.dispatch (.transparent (.peerHandshake [1] (.responder 0 [])))) = some s' ∧
      Reachable Noise.reference Codec.silent (referenceOptions 2) s' ∧ s'.client.peers [1] = none ∧
      s'.events = s.events ++ [.error .notHandshakeState] :=
  peer_entry_removed (reachable_referenceRun 2 _ (by rfl)) (t := ⟨[1, 2, 1], 0, [1, 2, 0], 0⟩) (by rfl) 0 []

end RelayClient
