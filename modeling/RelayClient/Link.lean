import RelayClient.Delivery
import RelayClient.Dispatch

/-!
# Two clients and the relay, over every interleaving

Two clients `A` and `B`, with keys `key .a` and `key .b`, each make facade calls and dispatch messages in any
order, one step at a time. Between them the relay forwards every peer request one of them addresses to the key of
the other, in order, without loss, stamped with the sender's key (`deliveredTo`); it holds what it forwarded to a
client in that client's inbox until the client's event loop dispatches it. A client also dispatches, at any time,
any message of a third party: the server, or a peer other than the other client. Requests addressed to anyone
else leave the model. A link state keeps, as a history variable of the specification, what the calls of each
client submitted to the other (`Link.submitted`): one event per peer message, the one the other client is to
yield for it.

Each client of a link runs exactly as a single client does (`Link.Reachable.run`): the link adds the relay, not
a second semantics. What a step does to the channel between the two clients is stated once per kind of step:

* a facade call (`Call.run_channel`): it leaves the channel and sends nothing on it; or, on an absent entry, it
  is `connect_peer`, which enters a Noise initiator and sends the first handshake message if its write succeeds;
  or, on an entry in transport mode, it seals the messages it sends on the channel, in order, each carrying the
  call's payload (`Seals`, `Sealed`);
* a dispatch of a third party's message (`handleIncomingMessage_third`): it leaves the channel, sends nothing on
  it and yields no message of the other client;
* a dispatch of a message from the other client: the handlers' own spec lemmas, read at the channel's key.
-/

namespace RelayClient

/-- One of the two clients of a link. -/
inductive Side
  | a
  | b
  deriving DecidableEq, Repr

/-- The client at the other end. -/
def Side.other : Side → Side
  | .a => .b
  | .b => .a

@[simp] theorem Side.other_other (s : Side) : s.other.other = s := by cases s <;> rfl

@[simp] theorem Side.other_ne (s : Side) : s.other ≠ s := by cases s <;> decide

@[simp] theorem Side.ne_other (s : Side) : s ≠ s.other := by cases s <;> decide

/-- A side is the given one or the other. -/
theorem Side.eq_or_eq_other (s x : Side) : s = x ∨ s = x.other := by cases s <;> cases x <;> decide

/-- The peer key a message from the relay carries: the sender of a peer handshake or of a peer message. -/
def ResponseMessage.peerKey : ResponseMessage → Option Bytes
  | .transparent (.peerHandshake k _) => some k
  | .opaqueMessage (.peerMessage k _ _) => some k
  | _ => none

/-- Whether a message from the relay is a peer message, sealed on a peer channel. -/
def ResponseMessage.isPeerMessage : ResponseMessage → Bool
  | .opaqueMessage (.peerMessage ..) => true
  | _ => false

/-- An item of the event stream that is a message of the peer `k`. -/
def fromPeer (k : Bytes) : Except Error Event → Option Event
  | .ok ev => if ev.channel = some (.peer k) then some ev else none
  | .error _ => none

/-- The event the specification has a peer yield for one message of a facade call of `sender`: the call's
payload, in the variant its encoding picks, with the session the call passed. -/
def Call.relayedAs (sender : Bytes) : Call → Option Event
  | .send _ (some p) sessionId => some (relayedEvent sender p sessionId .json)
  | .sendBlob _ p sessionId => some (relayedEvent sender p sessionId .blob)
  | .broadcast sessionId _ (some p) => some (relayedEvent sender p (some sessionId) .json)
  | .broadcastBlob sessionId _ p => some (relayedEvent sender p (some sessionId) .blob)
  | _ => none

/-- The submission `ev` makes for each peer message among the forwarded messages `fw`. -/
def submission (ev : Option Event) (fw : List ResponseMessage) : List Event :=
  (fw.filter ResponseMessage.isPeerMessage).filterMap fun _ => ev

/-- What a step of the client `sender` that sent `sent` submitted to the client `recipient`: for a facade call,
one event per peer message it addressed to `recipient`; a dispatch submits nothing. -/
def Action.submitted (sender recipient : Bytes) : Action → List RequestMessage → List Event
  | .call c, sent => submission (c.relayedAs sender) (deliveredTo sender recipient sent)
  | .dispatch _, _ => []

/-- Two clients, what the relay has forwarded to each and its event loop has not dispatched yet, in order, and
what the calls of the other client submitted to each (a history variable). -/
structure Link (H T : Type) where
  run : Side → Run H T
  inbox : Side → List ResponseMessage
  submitted : Side → List Event

/-- A step of a link: a facade call of a client, the dispatch by a client of the oldest message the relay
forwarded to it, or the dispatch by a client of a message of a third party. -/
inductive Link.Move
  | call (s : Side) (c : Call)
  | deliver (s : Side)
  | third (s : Side) (m : ResponseMessage)

variable {H T : Type} (N : Noise H T) (codec : Codec) (opts : Side → ClientOptions) (key : Side → Bytes)

namespace Link

/-- The link after client `s` took the step `a`, which left `c`, sent `sent` and returned `r`: the relay
forwards to the other client what `s` addressed to it, and the submission of `a` is recorded. -/
def record (l : Link H T) (s : Side) (a : Action) (c : Client H T) (sent : List RequestMessage)
    (r : Except Error (Option Event)) : Link H T :=
  ⟨Function.update l.run s ⟨c, (l.run s).outbound ++ sent, (l.run s).events ++ a.yields r⟩,
    Function.update l.inbox s.other (l.inbox s.other ++ deliveredTo (key s) (key s.other) sent),
    Function.update l.submitted s.other (l.submitted s.other ++ a.submitted (key s) (key s.other) sent)⟩

/-- Client `s` takes the step `a`; `none` when it panics. -/
def act (l : Link H T) (s : Side) (a : Action) : Option (Link H T) :=
  match a.run N codec (opts s) (l.run s).client with
  | .returns c sent r => some (l.record key s a c sent r)
  | .panics _ => none

/-- One step of a link, `none` when it panics, when there is nothing to deliver, or when a third party would
speak with the other client's key. -/
def step (l : Link H T) : Move → Option (Link H T)
  | .call s c => l.act N codec opts key s (.call c)
  | .deliver s =>
    match l.inbox s with
    | [] => none
    | m :: rest => ({ l with inbox := Function.update l.inbox s rest } : Link H T).act N codec opts key s (.dispatch m)
  | .third s m => if m.peerKey = some (key s.other) then none else l.act N codec opts key s (.dispatch m)

/-- The link after a list of moves, `none` when one of them fails. -/
def steps (l : Link H T) : List Move → Option (Link H T)
  | [] => some l
  | mv :: mvs => (l.step N codec opts key mv).bind fun l' => l'.steps mvs

/-- The link just after both clients are built by `NativeClient::new`. -/
def start (c : Side → Client H T) : Link H T := ⟨fun s => ⟨c s, [], []⟩, fun _ => [], fun _ => []⟩

/-- The links reachable from two new clients. -/
inductive Reachable : Link H T → Prop
  | init {c : Side → Client H T} : (∀ s, ∃ status text, NativeClient.new N (opts s) status text = .ok (c s)) →
      Reachable (start c)
  | step {l l' : Link H T} (mv : Move) : Reachable l → l.step N codec opts key mv = some l' → Reachable l'

/-- Client `s`'s entry for the other client. -/
def entry (l : Link H T) (s : Side) : Option (ProtocolState H T) := (l.run s).client.peers (key s.other)

/-- The messages of the other client that client `s` has yielded, in order. -/
def received (l : Link H T) (s : Side) : List Event := (l.run s).events.filterMap (fromPeer (key s.other))

variable {N codec opts key}

@[simp] theorem steps_nil (l : Link H T) : l.steps N codec opts key [] = some l := rfl

@[simp] theorem steps_cons (l : Link H T) (mv : Move) (mvs : List Move) :
    l.steps N codec opts key (mv :: mvs) = (l.step N codec opts key mv).bind fun l' => l'.steps N codec opts key mvs :=
  rfl

theorem Reachable.steps {l : Link H T} (h : l.Reachable N codec opts key) :
    ∀ {mvs : List Move} {l' : Link H T}, l.steps N codec opts key mvs = some l' → l'.Reachable N codec opts key
  | [], _, hs => by cases hs; exact h
  | mv :: mvs, l', hs => by
    obtain ⟨l₁, h₁, h₂⟩ := Option.bind_eq_some.1 hs
    exact (h.step mv h₁).steps h₂

section Record

variable (l : Link H T) (s : Side) (a : Action) (c : Client H T) (sent : List RequestMessage)
  (r : Except Error (Option Event))

@[simp] theorem record_run_self :
    (l.record key s a c sent r).run s = ⟨c, (l.run s).outbound ++ sent, (l.run s).events ++ a.yields r⟩ := by
  simp [record]

@[simp] theorem record_run_other : (l.record key s a c sent r).run s.other = l.run s.other := by
  simp [record, Function.update_noteq (Side.other_ne s)]

@[simp] theorem record_inbox_self : (l.record key s a c sent r).inbox s = l.inbox s := by
  simp [record, Function.update_noteq (Side.ne_other s)]

@[simp] theorem record_inbox_other :
    (l.record key s a c sent r).inbox s.other = l.inbox s.other ++ deliveredTo (key s) (key s.other) sent := by
  simp [record]

@[simp] theorem record_submitted_self : (l.record key s a c sent r).submitted s = l.submitted s := by
  simp [record, Function.update_noteq (Side.ne_other s)]

@[simp] theorem record_submitted_other :
    (l.record key s a c sent r).submitted s.other = l.submitted s.other ++ a.submitted (key s) (key s.other) sent := by
  simp [record]

end Record

theorem act_eq_some {l l' : Link H T} {s : Side} {a : Action} (h : l.act N codec opts key s a = some l') :
    ∃ c sent r, a.run N codec (opts s) (l.run s).client = .returns c sent r ∧ l' = l.record key s a c sent r := by
  unfold act at h
  split at h
  · cases h; exact ⟨_, _, _, by assumption, rfl⟩
  · cases h

/-- A step of a client of a link is a step of its run, and leaves the other client's run. -/
theorem act_run {l l' : Link H T} {s : Side} {a : Action} (h : l.act N codec opts key s a = some l') :
    (l.run s).step N codec (opts s) a = some (l'.run s) ∧ l'.run s.other = l.run s.other := by
  obtain ⟨c, sent, r, hr, rfl⟩ := act_eq_some h
  simp [Run.step, hr]

theorem step_eq_act {l l' : Link H T} {mv : Move} (h : l.step N codec opts key mv = some l') :
    ∃ s a, (∃ l₀ : Link H T, l₀.run = l.run ∧ l₀.act N codec opts key s a = some l') := by
  cases mv with
  | call s c => exact ⟨s, _, l, rfl, h⟩
  | deliver s =>
    simp only [step] at h
    split at h
    · cases h
    · exact ⟨s, _, _, by rfl, h⟩
  | third s m =>
    simp only [step] at h
    split at h
    · cases h
    · exact ⟨s, _, l, rfl, h⟩

/-- Each client of a reachable link is a reachable run of a single client: the link adds the relay and nothing
else to what a client does. -/
theorem Reachable.run {l : Link H T} (h : l.Reachable N codec opts key) (s : Side) :
    RelayClient.Reachable N codec (opts s) (l.run s) := by
  induction h generalizing s with
  | init hc =>
    obtain ⟨status, text, hn⟩ := hc s
    exact .init hn
  | step mv _ hs ih =>
    obtain ⟨x, a, l₀, hl₀, hact⟩ := step_eq_act hs
    obtain ⟨hx, hother⟩ := act_run hact
    rw [hl₀] at hx hother
    rcases Side.eq_or_eq_other s x with rfl | rfl
    · exact (ih s).step a hx
    · rw [hother]; exact ih _

end Link

/-! ### The channel between the two clients -/

/-- What a link shows of the channel between its two clients: each client's entry for the other, each inbox,
what each client has yielded of the other's messages, and what was submitted to each. -/
structure View (H T : Type) where
  entry : Side → Option (ProtocolState H T)
  inbox : Side → List ResponseMessage
  received : Side → List Event
  submitted : Side → List Event

/-- The channel between the two clients of a link. -/
def Link.view (l : Link H T) : View H T := ⟨l.entry key, l.inbox, l.received key, l.submitted⟩

namespace View

/-- The view after client `x` took a step that left its inbox `rest` and its entry `e`, forwarded `fw` to the
other client, yielded `got` of the other client's messages and submitted `evs` to it. -/
def after (v : View H T) (x : Side) (rest : List ResponseMessage) (e : Option (ProtocolState H T))
    (fw : List ResponseMessage) (got evs : List Event) : View H T :=
  ⟨Function.update v.entry x e, Function.update (Function.update v.inbox x rest) x.other (v.inbox x.other ++ fw),
    Function.update v.received x (v.received x ++ got),
    Function.update v.submitted x.other (v.submitted x.other ++ evs)⟩

section After

variable (v : View H T) (x : Side) (rest : List ResponseMessage) (e : Option (ProtocolState H T))
  (fw : List ResponseMessage) (got evs : List Event)

@[simp] theorem after_entry_self : (v.after x rest e fw got evs).entry x = e := by simp [after]

@[simp] theorem after_entry_other : (v.after x rest e fw got evs).entry x.other = v.entry x.other := by
  simp [after, Function.update_noteq (Side.other_ne x)]

@[simp] theorem after_inbox_self : (v.after x rest e fw got evs).inbox x = rest := by
  simp [after, Function.update_noteq (Side.ne_other x)]

@[simp] theorem after_inbox_other : (v.after x rest e fw got evs).inbox x.other = v.inbox x.other ++ fw := by
  simp [after]

@[simp] theorem after_received_self : (v.after x rest e fw got evs).received x = v.received x ++ got := by
  simp [after]

@[simp] theorem after_received_other : (v.after x rest e fw got evs).received x.other = v.received x.other := by
  simp [after, Function.update_noteq (Side.other_ne x)]

@[simp] theorem after_submitted_self : (v.after x rest e fw got evs).submitted x = v.submitted x := by
  simp [after, Function.update_noteq (Side.ne_other x)]

@[simp] theorem after_submitted_other :
    (v.after x rest e fw got evs).submitted x.other = v.submitted x.other ++ evs := by
  simp [after]

@[simp] theorem after_entry_keep : (v.after x rest (v.entry x) fw got evs).entry = v.entry := by
  simp [after]

/-- A step that yields nothing leaves what each client yielded. -/
theorem after_received_nil : (v.after x rest e fw [] evs).received = v.received := by
  simp [after]

/-- What the step takes from `x`'s inbox does not matter to the view after it. -/
theorem after_update_inbox (rest' : List ResponseMessage) :
    ({ v with inbox := Function.update v.inbox x rest' } : View H T).after x rest e fw got evs =
      v.after x rest e fw got evs := by
  simp [after, Function.update_noteq]

/-- A step that changes nothing of the channel. -/
theorem after_self : v.after x (v.inbox x) (v.entry x) [] [] [] = v := by
  cases v
  simp only [after, Function.update_eq_self, List.append_nil]

end After

end View

namespace Link

variable {N codec opts key}

theorem view_record (l : Link H T) (x : Side) (a : Action) (c : Client H T) (sent : List RequestMessage)
    (r : Except Error (Option Event)) :
    (l.record key x a c sent r).view key = (l.view key).after x (l.inbox x) (c.peers (key x.other))
      (deliveredTo (key x) (key x.other) sent) ((a.yields r).filterMap (fromPeer (key x.other)))
      (a.submitted (key x) (key x.other) sent) := by
  simp only [view, View.after, View.mk.injEq]
  refine ⟨funext fun s => ?_, funext fun s => ?_, funext fun s => ?_, funext fun s => ?_⟩ <;>
    rcases Side.eq_or_eq_other s x with rfl | rfl <;>
    simp [entry, received, Function.update_noteq]

/-- A facade call of `x`: its effect on `x`'s entry, what the relay forwards to the other client, and what the
call submitted to it; `x` yields nothing. -/
theorem step_call_view {l l' : Link H T} {x : Side} {c : Call} (h : l.step N codec opts key (.call x c) = some l') :
    ∃ c' sent r, c.run N codec (opts x) (l.run x).client = .returns c' sent r ∧
      l'.view key = (l.view key).after x (l.inbox x) (c'.peers (key x.other))
        (deliveredTo (key x) (key x.other) sent) []
        (submission (c.relayedAs (key x)) (deliveredTo (key x) (key x.other) sent)) := by
  obtain ⟨c', sent, r, hr, rfl⟩ := act_eq_some h
  obtain ⟨r', hc, -⟩ := Outcome.map_eq_returns hr
  exact ⟨c', sent, r', hc, by rw [view_record]; rfl⟩

/-- A delivery to `x`: the dispatch of the oldest message the relay forwarded to it. -/
theorem step_deliver_view {l l' : Link H T} {x : Side} (h : l.step N codec opts key (.deliver x) = some l') :
    ∃ m rest c' sent r, l.inbox x = m :: rest ∧
      EventLoop.handleIncomingMessage N codec (opts x) (l.run x).client m = .returns c' sent r ∧
      l'.view key = (l.view key).after x rest (c'.peers (key x.other)) (deliveredTo (key x) (key x.other) sent)
        ((yielded r).filterMap (fromPeer (key x.other))) [] := by
  simp only [step] at h
  split at h
  · cases h
  · rename_i m rest hm
    obtain ⟨c', sent, r, hr, rfl⟩ := act_eq_some h
    refine ⟨m, rest, c', sent, r, hm, hr, ?_⟩
    rw [view_record]
    simp only [Function.update_same]
    exact (l.view key).after_update_inbox x rest _ _ _ _ rest

/-- A dispatch by `x` of a third party's message. -/
theorem step_third_view {l l' : Link H T} {x : Side} {m : ResponseMessage}
    (h : l.step N codec opts key (.third x m) = some l') :
    ∃ c' sent r, m.peerKey ≠ some (key x.other) ∧
      EventLoop.handleIncomingMessage N codec (opts x) (l.run x).client m = .returns c' sent r ∧
      l'.view key = (l.view key).after x (l.inbox x) (c'.peers (key x.other)) (deliveredTo (key x) (key x.other) sent)
        ((yielded r).filterMap (fromPeer (key x.other))) [] := by
  simp only [step] at h
  split at h
  · cases h
  · rename_i hk
    obtain ⟨c', sent, r, hr, rfl⟩ := act_eq_some h
    exact ⟨c', sent, r, hk, hr, by rw [view_record]; rfl⟩

end Link


/-! ### What a facade call does to the channel -/

/-- `Sealed N sender t t' ms evs`: from the transport state `t`, the client with key `sender` reached `t'` sealing
on its channel the messages `ms`, in order and as the relay forwards them, the payload of each giving its event
in `evs`; in between it may have opened messages of the other direction. -/
inductive Sealed (sender : Bytes) : T → T → List ResponseMessage → List Event → Prop
  | refl (t : T) : Sealed sender t t [] []
  | write {t t₁ t' : T} {p c : Bytes} {ms : List ResponseMessage} {evs : List Event} (sessionId : Option SessionId)
      {encoding : Encoding} (broadcast : Bool) : encoding ≠ .noop → N.writeTransport t p = .ok (c, t₁) →
      Sealed sender t₁ t' ms evs →
      Sealed sender t t' (.opaqueMessage (.peerMessage sender sessionId ⟨c.length, encoding, c, broadcast⟩) :: ms)
        (relayedEvent sender p sessionId encoding :: evs)
  | read {t t₁ t' : T} {c p : Bytes} {ms : List ResponseMessage} {evs : List Event} :
      N.readTransport t c = .ok (p, t₁) → Sealed sender t₁ t' ms evs → Sealed sender t t' ms evs

/-- What sealing does to a client's entry for a peer, seen from that peer: nothing, or an entry in transport
mode advanced past the messages it sealed, in order, with the peer's own sending direction still paired with
it. -/
inductive Seals (sender : Bytes) :
    Option (ProtocolState H T) → Option (ProtocolState H T) → List ResponseMessage → List Event → Prop
  | keep (e : Option (ProtocolState H T)) : Seals sender e e [] []
  | advance {t t' : T} {ms : List ResponseMessage} {evs : List Event} : Sealed N sender t t' ms evs →
      (∀ x, N.Paired x t → N.Paired x t') → Seals sender (some (.transport t)) (some (.transport t')) ms evs

/-- What `connect_peer` does to an absent entry for a peer, seen from that peer: a Noise initiator enters the
registry and, if it writes its first message, the relay forwards that message. -/
inductive Initiates (sender : Bytes) : Option (ProtocolState H T) → List ResponseMessage → Prop
  | sent {h₀ h₁ : H} {len : Nat} {buf : Bytes} : N.handshakeWrite h₀ [] (zeros 1024) = .ok (len, buf, h₁) →
      Initiates sender (some (.handshake h₁)) [.transparent (.peerHandshake sender (.initiator len buf))]
  | failed (h₀ : H) : Initiates sender (some (.handshake h₀)) []

variable {N}

namespace Sealed

variable {sender : Bytes} {t t₁ t₂ : T} {ms ms' : List ResponseMessage} {evs evs' : List Event}

theorem trans (h : Sealed N sender t t₁ ms evs) (h' : Sealed N sender t₁ t₂ ms' evs') :
    Sealed N sender t t₂ (ms ++ ms') (evs ++ evs') := by
  induction h with
  | refl => exact h'
  | write sessionId broadcast he hw _ ih => exact .write sessionId broadcast he hw (ih h')
  | read hr _ ih => exact .read hr (ih h')

/-- Opening a message of the other direction after sealing. -/
theorem read_right (h : Sealed N sender t t₁ ms evs) {c p : Bytes} (hr : N.readTransport t₁ c = .ok (p, t₂)) :
    Sealed N sender t t₂ ms evs := by
  simpa using h.trans (.read hr (.refl t₂))

theorem length_eq (h : Sealed N sender t t₁ ms evs) : ms.length = evs.length := by
  induction h with
  | refl => rfl
  | write _ _ _ _ _ ih => simp [ih]
  | read _ _ ih => exact ih

/-- Every sealed message is a peer message from `sender`. -/
theorem peerMessage (h : Sealed N sender t t₁ ms evs) :
    ∀ m ∈ ms, ∃ sessionId envelope, m = .opaqueMessage (.peerMessage sender sessionId envelope) := by
  induction h with
  | refl => simp
  | write sessionId _ _ _ _ ih =>
    intro m hm
    rcases List.mem_cons.1 hm with rfl | hm
    · exact ⟨sessionId, _, rfl⟩
    · exact ih m hm
  | read _ _ ih => exact ih

/-- Having sealed nothing, the sending side is still paired with the receiving side. -/
theorem paired_of_nil {u : T} (h : Sealed N sender t t₁ [] evs) (hp : N.Paired t u) : N.Paired t₁ u := by
  generalize hms : ([] : List ResponseMessage) = ms₀ at h
  induction h with
  | refl => exact hp
  | write => cases hms
  | read hr _ ih => exact ih (N.paired_readTransport hp hr) hms

/-- The receiving side paired with `t` opens the first message sealed from `t` to its payload; it is then paired
with a state of the sending side from which the other messages were sealed. -/
theorem head {u : T} {m : ResponseMessage} (h : Sealed N sender t t₁ (m :: ms) evs) (hp : N.Paired t u) :
    ∃ sessionId encoding c broadcast p u' evs', m = .opaqueMessage (.peerMessage sender sessionId
        ⟨c.length, encoding, c, broadcast⟩) ∧ encoding ≠ .noop ∧ N.readTransport u c = .ok (p, u') ∧
      evs = relayedEvent sender p sessionId encoding :: evs' ∧
      ∃ t₀, N.Paired t₀ u' ∧ Sealed N sender t₀ t₁ ms evs' := by
  generalize hms : m :: ms = ms₀ at h
  induction h generalizing u with
  | refl => cases hms
  | write sessionId broadcast he hw hs _ =>
    cases hms
    obtain ⟨u', hr, hp'⟩ := N.readTransport_of_paired hp hw
    exact ⟨sessionId, _, _, broadcast, _, u', _, rfl, he, hr, rfl, _, hp', hs⟩
  | read hr _ ih => exact ih (N.paired_readTransport hp hr) hms

end Sealed

theorem Seals.trans {sender : Bytes} {e₁ e₂ e₃ : Option (ProtocolState H T)} {ms ms' : List ResponseMessage}
    {evs evs' : List Event} (h : Seals N sender e₁ e₂ ms evs) (h' : Seals N sender e₂ e₃ ms' evs') :
    Seals N sender e₁ e₃ (ms ++ ms') (evs ++ evs') := by
  cases h with
  | keep => simpa using h'
  | advance hs hp =>
    cases h' with
    | keep => simpa using Seals.advance hs hp
    | advance hs' hp' => exact .advance (hs.trans hs') fun x hx => hp' x (hp x hx)

variable {codec}

namespace NativeClient

variable {o : ClientOptions} {c c' : Client H T} {sent : List RequestMessage} {r : Except Error Unit}

/-- `relay` on a client's channel to `recipient`: if it seals there, the peer is `recipient` and the channel is in
transport mode. -/
theorem relay_channel {k p : Bytes} {encoding : Encoding} {broadcast : Bool} {sessionId : Option SessionId}
    (sender recipient : Bytes) (he : encoding ≠ .noop)
    (h : relay N c k p encoding broadcast sessionId = .returns c' sent r) :
    Seals N sender (c.peers recipient) (c'.peers recipient) (deliveredTo sender recipient sent)
      (submission (some (relayedEvent sender p sessionId encoding)) (deliveredTo sender recipient sent)) := by
  unfold relay at h
  split at h
  · rename_i peer hk
    split at h
    · cases h; exact .keep _
    · rename_i hs
      obtain ⟨t, t', c₀, rfl, rfl, hw, rfl⟩ := encryptPeerChannel_ok hs
      cases h
      by_cases hkr : k = recipient
      · subst hkr
        simp only [Registry.insert_apply, if_true, hk, deliveredTo_peerMessage]
        exact .advance (.write sessionId broadcast he hw (.refl t')) fun x hx => N.paired_writeTransport hx hw
      · simpa [Ne.symm hkr, hkr, submission] using (Seals.keep (c.peers recipient) : Seals N sender _ _ _ _)
  · cases h; exact .keep _

theorem relayBroadcast_channel {sessionId : SessionId} {p : Bytes} {encoding : Encoding} (sender recipient : Bytes)
    (he : encoding ≠ .noop) :
    ∀ {keys : List Bytes} {c c' : Client H T} {sent : List RequestMessage} {r : Except Error Unit},
      relayBroadcast N sessionId p encoding c keys = .returns c' sent r →
      Seals N sender (c.peers recipient) (c'.peers recipient) (deliveredTo sender recipient sent)
        (submission (some (relayedEvent sender p (some sessionId) encoding)) (deliveredTo sender recipient sent))
  | [], c, c', sent, r, h => by cases h; exact .keep _
  | key :: keys, c, c', sent, r, h => by
    unfold relayBroadcast at h
    split at h
    · rename_i c₁ sent₁ h₁
      rcases h₂ : relayBroadcast N sessionId p encoding c₁ keys with ⟨c₂, sent₂, r₂⟩ | msg <;> rw [h₂] at h <;>
        cases h
      simpa [submission] using
        (relay_channel sender recipient he h₁).trans (relayBroadcast_channel sender recipient he h₂)
    · exact relay_channel sender recipient he h

/-- `connect_peer(k)` touches the channel to `recipient` only when `k = recipient` and the entry is absent. -/
theorem connectPeer_channel {k : Bytes} (sender recipient : Bytes) (h : connectPeer N o c k = .returns c' sent r) :
    (c'.peers recipient = c.peers recipient ∧ deliveredTo sender recipient sent = []) ∨
      (c.peers recipient = none ∧ Initiates N sender (c'.peers recipient) (deliveredTo sender recipient sent)) := by
  unfold connectPeer at h
  split at h
  · cases h; exact .inl ⟨rfl, rfl⟩
  · rename_i hk
    have hk : c.peers k = none := by simpa using hk
    split at h
    · cases h; exact .inl ⟨rfl, rfl⟩
    · rename_i h₀ _
      simp only [hk, Option.getD_none] at h
      by_cases hkr : k = recipient
      · subst hkr
        split at h <;> cases h
        · exact .inr ⟨hk, by simpa using (Initiates.failed h₀ : Initiates N sender _ _)⟩
        · exact .inr ⟨hk, by simpa using (Initiates.sent (by assumption) : Initiates N sender _ _)⟩
      · split at h <;> cases h <;> exact .inl ⟨by simp [Ne.symm hkr], by simp [hkr]⟩

theorem connect_peers (sender recipient : Bytes) (h : connect N c = .returns c' sent r) :
    c'.peers = c.peers ∧ deliveredTo sender recipient sent = [] := by
  unfold connect at h
  split at h
  · split at h <;> cases h <;> exact ⟨rfl, rfl⟩
  · cases h; exact ⟨rfl, rfl⟩

theorem request_peers {m : ServerMessage} (sender recipient : Bytes) (h : request N codec c m = .returns c' sent r) :
    c'.peers = c.peers ∧ deliveredTo sender recipient sent = [] := by
  unfold request at h
  split at h
  · split at h
    · cases h; exact ⟨rfl, rfl⟩
    · split at h <;> cases h <;> exact ⟨rfl, rfl⟩
  · cases h

end NativeClient

/-- What a facade call of the client with key `sender` does to its channel to `recipient`: it seals on the
channel the messages it sends there, each carrying the call's payload (nothing, unless the channel is in
transport mode); or it is `connect_peer(recipient)` on an absent entry. -/
theorem Call.run_channel {o : ClientOptions} {c c' : Client H T} {call : Call} {sent : List RequestMessage}
    {r : Except Error Unit} (sender recipient : Bytes) (h : call.run N codec o c = .returns c' sent r) :
    Seals N sender (c.peers recipient) (c'.peers recipient) (deliveredTo sender recipient sent)
        (submission (call.relayedAs sender) (deliveredTo sender recipient sent)) ∨
      (c.peers recipient = none ∧ submission (call.relayedAs sender) (deliveredTo sender recipient sent) = [] ∧
        Initiates N sender (c'.peers recipient) (deliveredTo sender recipient sent)) := by
  have keep : c'.peers = c.peers → deliveredTo sender recipient sent = [] →
      Seals N sender (c.peers recipient) (c'.peers recipient) (deliveredTo sender recipient sent)
        (submission (call.relayedAs sender) (deliveredTo sender recipient sent)) := fun hp hd => by
    rw [hp, hd]; exact .keep _
  cases call with
  | connect => exact .inl (keep (NativeClient.connect_peers sender recipient h).1
      (NativeClient.connect_peers sender recipient h).2)
  | connectPeer k =>
    rcases NativeClient.connectPeer_channel sender recipient h with ⟨hp, hd⟩ | ⟨hn, hi⟩
    · left; rw [hp, hd]; exact .keep _
    · exact .inr ⟨hn, by simp [Call.relayedAs, submission], hi⟩
  | send k serialized sessionId =>
    cases serialized with
    | none => cases h; exact .inl (.keep _)
    | some p => exact .inl (NativeClient.relay_channel sender recipient (by decide) h)
  | sendBlob k p sessionId => exact .inl (NativeClient.relay_channel sender recipient (by decide) h)
  | broadcast sessionId keys serialized =>
    cases serialized with
    | none => cases h; exact .inl (.keep _)
    | some p => exact .inl (NativeClient.relayBroadcast_channel sender recipient (by decide) h)
  | broadcastBlob sessionId keys p => exact .inl (NativeClient.relayBroadcast_channel sender recipient (by decide) h)
  | _ =>
    have hr := NativeClient.request_peers sender recipient h
    exact .inl (keep hr.1 hr.2)

/-! ### What a dispatch does to the channel -/

@[simp] theorem fromPeer_relayedEvent (k p : Bytes) (sessionId : Option SessionId) (encoding : Encoding) :
    fromPeer k (.ok (relayedEvent k p sessionId encoding)) = some (relayedEvent k p sessionId encoding) := by
  cases encoding <;> simp [fromPeer, relayedEvent, Event.channel]

@[simp] theorem fromPeer_peerConnected (k k' : Bytes) : fromPeer k (.ok (.peerConnected k')) = none := rfl

namespace EventLoop

variable {o : ClientOptions} {c c' : Client H T} {sent : List RequestMessage}

theorem handleServerMessage_peers {envelope : SealedEnvelope} {r : Except Error (Option Event)}
    (h : handleServerMessage N codec c envelope = .returns c' sent r) : c'.peers = c.peers := by
  unfold handleServerMessage at h
  split at h
  · split at h
    · cases h
    · cases h; rfl
    · split at h
      · split at h <;> cases h <;> rfl
      · cases h
  · cases h

theorem handleRelayedMessage_peers {k k' : Bytes} {envelope : SealedEnvelope} {sessionId : Option SessionId}
    {r : Except Error Event} (hk : k' ≠ k) (h : handleRelayedMessage N c k envelope sessionId = .returns c' sent r) :
    c'.peers k' = c.peers k' := by
  unfold handleRelayedMessage at h
  split at h
  · split at h
    · cases h
    · cases h; simp [hk]
    · split at h <;> cases h <;> simp [hk]
  · cases h; rfl

/-- A third party's message leaves the channel to `k`, sends nothing on it and yields no message of `k`. -/
theorem handleIncomingMessage_third {m : ResponseMessage} {r : Except Error (Option Event)} (sender k : Bytes)
    (hk : m.peerKey ≠ some k) (h : handleIncomingMessage N codec o c m = .returns c' sent r) :
    c'.peers k = c.peers k ∧ deliveredTo sender k sent = [] ∧ (yielded r).filterMap (fromPeer k) = [] := by
  rcases handleIncomingMessage_returns h with ⟨len, buf, r', -, h', rfl⟩ | ⟨k', len, buf, rfl, h'⟩ |
    ⟨k', len, buf, r', rfl, h', rfl⟩ | ⟨k', sid, env, r', rfl, h', rfl⟩ | ⟨env, -, h'⟩
  · obtain ⟨rfl, hp, ⟨_, _, -, -, rfl⟩ | ⟨-, e, rfl⟩⟩ := serverHandshake_returns h' <;>
      simp [hp, yielded, fromPeer, Except.map, Event.channel]
  · have hk' : k' ≠ k := by simpa [ResponseMessage.peerKey] using hk
    rcases peerHandshakeResponder_returns h' with ⟨-, t, len', payload, rfl, rfl, rfl⟩ | ⟨rfl, rfl, e, rfl⟩
    · simp [hk', Ne.symm hk', yielded]
    · simp [yielded, fromPeer]
  · have hk' : k' ≠ k := by simpa [ResponseMessage.peerKey] using hk
    obtain ⟨rfl, -, ⟨_, t, -, hp, rfl⟩ | ⟨rfl, -, rfl⟩ | ⟨hp, e, rfl⟩⟩ := peerHandshakeAck_returns h'
    · simp [hp, Ne.symm hk', yielded, Except.map]
    · simp [yielded, fromPeer, Except.map]
    · simp [hp, Ne.symm hk', yielded, fromPeer, Except.map]
  · have hk' : k' ≠ k := by simpa [ResponseMessage.peerKey] using hk
    obtain ⟨rfl, -, hm⟩ := handleRelayedMessage_returns h'
    refine ⟨handleRelayedMessage_peers (Ne.symm hk') h', rfl, ?_⟩
    rcases r' with e | ev
    · rfl
    · simp [yielded, fromPeer, Except.map, (hm ev rfl).2, hk']
  · obtain ⟨rfl, -, hm⟩ := handleServerMessage_returns h'
    refine ⟨by rw [handleServerMessage_peers h'], rfl, ?_⟩
    rcases r with e | (_ | ev)
    · rfl
    · rfl
    · simp [yielded, fromPeer, (hm ev rfl).2.1]

/-- The first handshake message of the other client: the responder half answers it and enters transport mode,
or fails with nothing changed. -/
theorem handleIncomingMessage_initiator {k : Bytes} {len : Nat} {buf : Bytes} {r : Except Error (Option Event)}
    (h : handleIncomingMessage N codec o c (.transparent (.peerHandshake k (.initiator len buf))) =
      .returns c' sent r) :
    (∃ hr len' payload tr, respond N hr (buf.take len) = .ok (len', payload, tr) ∧
        c'.peers k = some (.transport tr) ∧ sent = [.transparent (.peerHandshake k (.responder len' payload))] ∧
        r = .ok (some (.peerConnected k))) ∨
      (c' = c ∧ sent = [] ∧ ∃ e, r = .error e) := by
  rcases peerHandshakeResponder_returns h with ⟨-, -, -, -, -, -, rfl⟩ | hf
  · obtain ⟨hr, message, len', payload, tr, -, hsl, hresp, hc, hs⟩ := peerHandshakeResponder_ok h
    obtain ⟨-, rfl⟩ := slice_eq_some_iff.1 hsl
    exact .inl ⟨hr, len', payload, tr, hresp, by simp [hc], hs, rfl⟩
  · exact .inr hf

/-- The first handshake message of the other client, to an entry already there: refused, nothing changed. -/
theorem handleIncomingMessage_initiator_present {k : Bytes} {len : Nat} {buf : Bytes} (hk : c.peers k ≠ none) :
    handleIncomingMessage N codec o c (.transparent (.peerHandshake k (.initiator len buf))) =
      .returns c [] (.error .peerAlreadyExistsMaybeRace) := by
  simp [handleIncomingMessage, peerHandshakeResponder, Option.isSome_iff_ne_none.2 hk]

/-- The answer of the other client, to an entry in handshake mode: the initiator completes and enters transport
mode, or fails with the entry removed. -/
theorem handleIncomingMessage_responder_handshake {k : Bytes} {hs : H} {len : Nat} {buf : Bytes}
    {r : Except Error (Option Event)} (hk : c.peers k = some (.handshake hs))
    (h : handleIncomingMessage N codec o c (.transparent (.peerHandshake k (.responder len buf))) =
      .returns c' sent r) :
    sent = [] ∧ ((∃ ti, complete N hs (buf.take len) = .ok ti ∧ c'.peers k = some (.transport ti) ∧
        r = .ok (some (.peerConnected k))) ∨ (c'.peers k = none ∧ ∃ e, r = .error e)) := by
  obtain ⟨r', h', rfl⟩ := Outcome.map_eq_returns h
  obtain ⟨rfl, -, ⟨_, t, -, -, rfl⟩ | ⟨-, hn, -⟩ | ⟨hp, e, rfl⟩⟩ := peerHandshakeAck_returns h'
  · obtain ⟨hi, message, ti, hhi, hsl, hc, rfl⟩ := peerHandshakeAck_ok h'
    rw [hk] at hhi
    cases hhi
    obtain ⟨-, rfl⟩ := slice_eq_some_iff.1 hsl
    exact ⟨rfl, .inl ⟨ti, hc, by simp, rfl⟩⟩
  · simp [hk] at hn
  · exact ⟨rfl, .inr ⟨by simp [hp], e, rfl⟩⟩

/-- A peer message of the other client, to an entry in transport mode that opens it: its payload, yielded. -/
theorem handleIncomingMessage_sealed {k p c₀ : Bytes} {u u' : T} {encoding : Encoding} {broadcast : Bool}
    {sessionId : Option SessionId} (hk : c.peers k = some (.transport u)) (hr : N.readTransport u c₀ = .ok (p, u'))
    (he : encoding ≠ .noop) :
    handleIncomingMessage N codec o c (.opaqueMessage (.peerMessage k sessionId ⟨c₀.length, encoding, c₀, broadcast⟩)) =
      .returns { c with peers := c.peers.insert k (.transport u') } []
        (.ok (some (relayedEvent k p sessionId encoding))) := by
  have hl : (⟨c₀.length, encoding, c₀, broadcast⟩ : SealedEnvelope).length ≤
      (⟨c₀.length, encoding, c₀, broadcast⟩ : SealedEnvelope).payload.length := Nat.le_refl _
  have := handleRelayedMessage_of_read hk hl (by simpa using hr) sessionId
  cases encoding
  · exact absurd rfl he
  all_goals simp_all [handleIncomingMessage, relayedEvent, Except.map]

/-- A peer message of the other client, to an entry not in transport mode: refused, the entry unchanged. -/
theorem handleIncomingMessage_closed {k : Bytes} {sessionId : Option SessionId} {envelope : SealedEnvelope}
    (hk : ProtocolState.inTransport (c.peers k) = false) :
    ∃ c' e, handleIncomingMessage N codec o c (.opaqueMessage (.peerMessage k sessionId envelope)) =
      .returns c' [] (.error e) ∧ c'.peers k = c.peers k := by
  rcases h : c.peers k with _ | (hs | t)
  · exact ⟨c, .peerNotFound (hexEncode k), by simp [handleIncomingMessage, handleRelayedMessage, h, Except.map], h⟩
  · exact ⟨{ c with peers := c.peers.insert k (.handshake hs) }, .notTransportState,
      by simp [handleIncomingMessage, handleRelayedMessage, decryptPeerChannel, h, Except.map], by simp⟩
  · simp [h] at hk

end EventLoop

end RelayClient
