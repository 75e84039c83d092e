import GameServer.Library.LengthPrefix
import GameServer.NetIo.Streams
import GameServer.Server.Frames
import GameServer.Server.Framing

/-!
# What the clients read

A message of a game service waits in two queues, is made a frame by net logic, is given to
`send_data` once for each recipient, and waits again in the chain of the slot until `write` takes
it. Here the messages are followed all the way, connection by connection: what the kernel has
accepted for a connection is cut by the client into the messages that were meant for it, in the
order in which the game services emitted them.

## Main definitions

* `Outgoing` : what was emitted, given to each connection and accepted of it.
* `outgoingMachine` : the server, with this recorded.
* `inFlightTo` : the frames on their way to a connection.
* `OutputKept` : the condition on the next step.

## Main results

* `OutgoingInv.step` : the step lemma.
* `clients_read_responses` : every client reads its messages once and in order.
-/

namespace GameServer

/-! ### Frames on their way -/

/-- Net IO sends to the slot `u` what is meant for the id. -/
def leadsTo (u : Uid) (id : ℤ) : Bool := decide (poolIndex id = .ok u)

/-- The frame, once for each of the ids that leads to the slot `u`. -/
def framesTo (u : Uid) (uidList : List ℤ) (buffer : List UInt8) : List (List UInt8) :=
  (uidList.filter (leadsTo u)).map fun _ => buffer

/-- The messages, once for each time that they name the slot `u`. -/
def copiesTo (u : Uid) (bs : List Broadcast) : List Broadcast :=
  bs.flatMap fun b => (b.uidList.filter (leadsTo u)).map fun _ => b

/-- The frames of a node of net IO for the slot `u`. -/
def NetIoNode.framesTo (u : Uid) : NetIoNode → List (List UInt8)
  | .broadcast _ uidList buffer => GameServer.framesTo u uidList buffer
  | _ => []

/-- The frames on their way to the slot `u`: of the broadcast being sent, of the nodes of net IO,
and of the messages that are not frames yet. -/
def inFlightTo (P : Protobuf) (u : Uid) (s : Server) : List (List UInt8) :=
  framesTo u s.sending.uidList s.sending.buffer ++ s.toNetIo.flatMap (NetIoNode.framesTo u) ++
    s.fromGame.flatMap fun b => framesTo u b.uidList (b.frame P)

theorem framesTo_cons_self {u : Uid} {id : ℤ} (h : poolIndex id = .ok u) (ids : List ℤ)
    (buffer : List UInt8) : framesTo u (id :: ids) buffer = buffer :: framesTo u ids buffer := by
  have hleads : leadsTo u id = true := decide_eq_true h
  rw [framesTo, List.filter_cons_of_pos hleads, List.map_cons, framesTo]

theorem framesTo_cons_of_ne {u v : Uid} {id : ℤ} (h : poolIndex id = .ok u) (hv : v ≠ u)
    (ids : List ℤ) (buffer : List UInt8) :
    framesTo v (id :: ids) buffer = framesTo v ids buffer := by
  have hnot : ¬leadsTo v id = true := fun hleads =>
    hv (Except.ok.inj ((of_decide_eq_true hleads).symm.trans h))
  rw [framesTo, List.filter_cons_of_neg hnot, framesTo]

/-- The frames of the messages that name a slot. -/
theorem map_frame_copiesTo (P : Protobuf) (u : Uid) (bs : List Broadcast) :
    (copiesTo u bs).map (Broadcast.frame P) =
      bs.flatMap fun b => framesTo u b.uidList (b.frame P) := by
  rw [copiesTo, List.map_flatMap]
  refine List.flatMap_congr fun b _ => ?_
  rw [List.map_map]
  rfl

/-! ### The server, with what was sent recorded -/

/-- What the game services have emitted; the frames that each slot was given before its present
connection was opened, and since; and the bytes that `write` has accepted of the latter. -/
structure Outgoing where
  emitted : List Broadcast
  before : Uid → List (List UInt8)
  given : Uid → List (List UInt8)
  accepted : Uid → List UInt8

namespace Outgoing

/-- Before the first step. -/
def start : Outgoing := ⟨[], fun _ => [], fun _ => [], fun _ => []⟩

/-- After an event with the reports `out`: a connection that was opened begins anew. -/
def event (h : Outgoing) (ss : SocketServer) (eve : Event Uid) (oc : Outcomes)
    (out : List IoMsg) : Outgoing :=
  { h with
    before := fun v => if .success v ∈ out then h.before v ++ h.given v else h.before v
    given := fun v => if .success v ∈ out then [] else h.given v
    accepted := fun v =>
      if .success v ∈ out then [] else h.accepted v ++ eventAccepted ss eve oc v }

/-- After a frame was given to the slot `u`, of which `write` accepted some bytes at once. -/
def send (h : Outgoing) (u : Uid) (buffer accepted : List UInt8) : Outgoing :=
  { h with
    given := Function.update h.given u (h.given u ++ [buffer])
    accepted := Function.update h.accepted u (h.accepted u ++ accepted) }

end Outgoing

/-- What is recorded of a step. -/
def Server.record (s : Server) (i : ServerIn) (h : Outgoing) : Outgoing :=
  match i with
  | .event eve oc =>
    if s.Busy then h
    else
      match disposeEvent s.io eve oc with
      | .ok (_, out) => h.event s.io eve oc out
      | .error _ => h
  | .send w =>
    match s.sending.uidList with
    | [] => h
    | id :: _ =>
      match poolIndex id with
      | .ok u => h.send u s.sending.buffer
          (s.sending.buffer.take (acceptedDirectly (s.io.socketPool u) s.sending.buffer.length w))
      | .error _ => h
  | .game g =>
    match s.services.handle g with
    | .ok (_, out) => { h with emitted := h.emitted ++ out }
    | .error _ => h
  | .node | .netIoMsg | .gameMsg => h

/-- The server, with what was sent recorded. -/
def outgoingMachine (P : Protobuf) : Machine (Server × Outgoing) ServerIn Unit Fault :=
  (serverMachine P).withGhost Server.record

/-- The condition on the next step: `send_buffer` gives up no block early, and what `send_data`
queues is copied exactly. -/
def OutputKept (q : Server × Outgoing) : ServerIn → Prop
  | .event eve oc => ¬q.1.Busy → EventKeeps q.1.io eve oc
  | .send w => ∀ id ∈ q.1.sending.uidList.head?,
      match poolIndex id with
      | .ok u => SendKeeps (q.1.io.socketPool u) q.1.sending.buffer w
      | .error _ => True
  | _ => True

/-- The node holds as many bytes as it says. -/
def NetIoNode.HasSize : NetIoNode → Prop
  | .broadcast size _ buffer => size = buffer.length
  | _ => True

/-- What was emitted for each slot is what was given to its earlier connections, what was given to
its present one and what is on its way; what was accepted is the front of what was given, and the
rest is pending while the connection is open. -/
structure OutgoingInv (P : Protobuf) (s : Server) (h : Outgoing) : Prop where
  ids : IdInv s.io
  ready : ∀ u, (s.io.socketPool u).Ready
  size : s.sending.size = s.sending.buffer.length
  sizes : ∀ n ∈ s.toNetIo, n.HasSize
  order : ∀ u, (h.emitted.flatMap fun b => framesTo u b.uidList (b.frame P)) =
    h.before u ++ h.given u ++ inFlightTo P u s
  front : ∀ u, h.accepted u <+: (h.given u).flatten
  rest : ∀ u, s.io.Open u →
    h.accepted u ++ (s.io.socketPool u).pending = (h.given u).flatten

namespace OutgoingInv

variable {P : Protobuf} {s s' : Server} {h : Outgoing}

theorem init {ss : SocketServer} {listenFd netlogicFd : ℤ}
    (hstart : networkIoServiceStart listenFd netlogicFd = .ok ss) (sv : Services) :
    OutgoingInv P (Server.start ss sv) .start where
  ids u hu := absurd hu (networkIoServiceStart_not_open hstart u)
  ready := networkIoServiceStart_ready hstart
  size := rfl
  sizes _ hn := absurd hn List.not_mem_nil
  order _ := rfl
  front _ := List.nil_prefix
  rest u hu := absurd hu (networkIoServiceStart_not_open hstart u)

/-- A step that leaves the pool and the record as they are. -/
theorem of_same (hinv : OutgoingInv P s h) (hio : s'.io = s.io)
    (hsize : s'.sending.size = s'.sending.buffer.length) (hsizes : ∀ n ∈ s'.toNetIo, n.HasSize)
    (hflight : ∀ u, inFlightTo P u s' = inFlightTo P u s) : OutgoingInv P s' h where
  ids := hio ▸ hinv.ids
  ready := hio ▸ hinv.ready
  size := hsize
  sizes := hsizes
  order u := by
    rw [hflight]
    exact hinv.order u
  front := hinv.front
  rest := hio ▸ hinv.rest

/-- What is accepted in a transfer is the front of what is pending, or nothing. -/
theorem front_append (hinv : OutgoingInv P s h) {u : Uid} {given accepted : List UInt8}
    {slot : Socket} (hopen : accepted ≠ [] → s.io.Open u)
    (ht : Transfer (s.io.socketPool u) given accepted slot) :
    h.accepted u ++ accepted <+: (h.given u).flatten ++ given := by
  by_cases hnil : accepted = []
  · subst hnil
    rw [List.append_nil]
    exact (hinv.front u).trans (List.prefix_append ..)
  · rw [← hinv.rest u (hopen hnil), List.append_assoc, List.prefix_append_right_inj]
    exact ht.front

/-- An event. -/
theorem event (hinv : OutgoingInv P s h) {eve : Event Uid} {oc : Outcomes} {io : SocketServer}
    {out : List IoMsg} (hkeeps : EventKeeps s.io eve oc)
    (hevent : disposeEvent s.io eve oc = .ok (io, out)) :
    OutgoingInv P { s with io := io, fromNetIo := s.fromNetIo ++ out }
      (h.event s.io eve oc out) := by
  have htransfer := disposeEvent_transfer hinv.ids hinv.ready hkeeps hevent
  refine ⟨(disposeEvent_step hinv.ids hevent).1, fun u => ?_, hinv.size, hinv.sizes, fun u => ?_,
    fun u => ?_, fun u hu => ?_⟩
  · cases htransfer u with
    | opened _ hready => exact hready
    | moved _ _ ht => exact ht.ready
  · simp only [Outgoing.event]
    split_ifs
    · rw [hinv.order u, List.append_nil]
      rfl
    · exact hinv.order u
  · cases htransfer u with
    | opened hout =>
      simp only [Outgoing.event, hout, List.mem_singleton, if_true]
      exact List.nil_prefix
    | moved hout _ ht =>
      simp only [Outgoing.event, if_neg hout]
      have hopen : eventAccepted s.io eve oc u ≠ [] → s.io.Open u := fun hne =>
        by_contra fun hnot => hne (if_neg fun hand => hnot hand.2.1)
      simpa only [List.append_nil] using hinv.front_append hopen ht
  · cases htransfer u with
    | opened hout _ hpending =>
      simp only [Outgoing.event, hout, List.mem_singleton, if_true, List.nil_append]
      exact hpending
    | moved hout hold ht =>
      simp only [Outgoing.event, if_neg hout]
      have hrest := ht.rest hu
      rw [List.append_nil] at hrest
      rw [List.append_assoc, hrest]
      exact hinv.rest u (hold hu)

/-- A frame is given to the slot of the next recipient. -/
theorem send (hinv : OutgoingInv P s h) {id : ℤ} {ids : List ℤ} {i : Uid} {io : SocketServer}
    {out : List IoMsg} {w : WriteRes} (hids : s.sending.uidList = id :: ids)
    (hi : poolIndex id = .ok i) (hkeeps : SendKeeps (s.io.socketPool i) s.sending.buffer w)
    (hsend : sendData s.io i s.sending.buffer s.sending.size w = .ok (io, out)) :
    OutgoingInv P (s.sent io ids out) (h.send i s.sending.buffer (s.sending.buffer.take
      (acceptedDirectly (s.io.socketPool i) s.sending.buffer.length w))) := by
  obtain ⟨hid, hopen, hslot⟩ := sendData_step hinv.ids hsend
  rw [hinv.size] at hsend
  obtain ⟨ht, hother⟩ := sendData_transfer (hinv.ready i) hkeeps hsend
  have hopenIff (u : Uid) (hu : u ≠ i) : io.Open u ↔ s.io.Open u := by
    rw [SocketServer.Open, hother u hu]
    rfl
  refine ⟨hid, fun u => ?_, hinv.size, hinv.sizes, fun u => ?_, fun u => ?_, fun u hu => ?_⟩
  · by_cases hu : u = i
    · subst hu
      exact ht.ready
    · simp only [Server.sent, hother u hu]
      exact hinv.ready u
  · refine (hinv.order u).trans ?_
    simp only [inFlightTo, Server.sent, Outgoing.send, hids]
    by_cases hu : u = i
    · subst hu
      rw [Function.update_self, framesTo_cons_self hi]
      simp only [List.append_assoc, List.cons_append, List.nil_append]
    · rw [Function.update_of_ne hu, framesTo_cons_of_ne hi hu]
  · simp only [Outgoing.send]
    by_cases hu : u = i
    · subst hu
      rw [Function.update_self, Function.update_self, List.flatten_append, List.flatten_singleton]
      exact hinv.front_append (fun _ => hopen) ht
    · rw [Function.update_of_ne hu, Function.update_of_ne hu]
      exact hinv.front u
  · simp only [Outgoing.send, Server.sent] at hu ⊢
    by_cases hui : u = i
    · subst hui
      rw [Function.update_self, Function.update_self, List.flatten_append, List.flatten_singleton,
        List.append_assoc, ht.rest hu, ← List.append_assoc, hinv.rest u hopen]
    · rw [Function.update_of_ne hui, Function.update_of_ne hui, hother u hui]
      exact hinv.rest u ((hopenIff u hui).mp hu)

/-- Net logic gives net IO no frames when it handles a message of net IO. -/
theorem framesTo_routed {P : Protobuf} {r r' : Router} {msg : IoMsg} {out : List NetOut}
    (hroute : RouteStep P r msg r' out) (u : Uid) :
    (out.filterMap NetOut.toNetIo).flatMap (NetIoNode.framesTo u) = [] ∧
      ∀ n ∈ out.filterMap NetOut.toNetIo, n.HasSize := by
  cases hroute with
  | refused =>
    refine ⟨rfl, fun n hn => ?_⟩
    rw [List.mem_singleton.mp hn]
    trivial
  | dropped | closedUnrouted => exact ⟨rfl, fun n hn => absurd hn List.not_mem_nil⟩
  | routed | forwarded | closed =>
    rw [Router.sendsTo_toNetIo]
    exact ⟨rfl, fun n hn => absurd hn List.not_mem_nil⟩

/-- The steps of the other services, and the nodes of net IO. -/
theorem other (hinv : OutgoingInv P s h) {i : ServerIn}
    (hi : i = .node ∨ i = .netIoMsg ∨ i = .gameMsg) (hs : ServerStep P s i s') :
    OutgoingInv P s' h := by
  cases hs with
  | idle => exact hinv
  | event | sent | handled => rcases hi with hi | hi | hi <;> cases hi
  | closed uid hfree hnode =>
    refine ⟨closeFd_idInv hinv.ids uid, fun u => ?_, hinv.size, fun n hn => hinv.sizes n ?_,
      fun u => ?_, hinv.front, fun u hu => ?_⟩
    · by_cases hinvalid : (s.io.socketPool uid).type = .invalid
      · have hsame : (closeFd s.io uid).1 = s.io := by simp only [closeFd, if_pos hinvalid]
        rw [hsame]
        exact hinv.ready u
      · by_cases hu : u = uid
        · subst hu
          exact (closeFd_ready hinvalid).1
        · simp only [closeFd_of_ne hu]
          exact hinv.ready u
    · rcases hnode with hnode | hnode <;>
      · rw [hnode]
        exact List.mem_cons_of_mem _ hn
    · refine (hinv.order u).trans ?_
      rcases hnode with hnode | hnode <;>
        simp only [inFlightTo, hnode, List.flatMap_cons, NetIoNode.framesTo, List.nil_append]
    · obtain ⟨hopen, hne⟩ := (closeFd_open_iff s.io uid u).mp hu
      simp only [closeFd_of_ne hne]
      exact hinv.rest u hopen
  | begun size uidList buffer hfree hnode =>
    have hidle : s.sending.uidList = [] := not_not.mp hfree
    have hsize : size = buffer.length := hinv.sizes (.broadcast size uidList buffer) (by
      rw [hnode]
      exact List.mem_cons_self)
    refine hinv.of_same rfl hsize (fun n hn => hinv.sizes n ?_) fun u => ?_
    · rw [hnode]
      exact List.mem_cons_of_mem _ hn
    · simp only [inFlightTo, hnode, hidle, List.flatMap_cons, NetIoNode.framesTo, framesTo,
        List.filter_nil, List.map_nil, List.nil_append]
  | routed msg hmsg hroute =>
    refine hinv.of_same rfl hinv.size (fun n hn => ?_) fun u => ?_
    · rcases List.mem_append.mp hn with hn | hn
      · exact hinv.sizes n hn
      · exact (framesTo_routed hroute 0).2 n hn
    · simp only [inFlightTo, List.flatMap_append, (framesTo_routed hroute u).1, List.append_nil]
  | packed b hb hpack =>
    obtain ⟨-, rfl, rfl⟩ := rspDataPack_eq_ok.mp hpack
    refine hinv.of_same rfl hinv.size (fun n hn => ?_) fun u => ?_
    · rcases List.mem_append.mp hn with hn | hn
      · exact hinv.sizes n hn
      · rw [List.mem_singleton.mp hn]
        rfl
    · simp only [inFlightTo, hb, List.flatMap_append, List.flatMap_cons, List.flatMap_nil,
        List.append_nil, NetIoNode.framesTo, List.append_assoc]

/-- A game service emits. -/
theorem game (hinv : OutgoingInv P s h) {sv : Services} {out : List Broadcast}
    (hs' : s' = { s with services := sv, fromGame := s.fromGame ++ out }) :
    OutgoingInv P s' { h with emitted := h.emitted ++ out } where
  ids := hs' ▸ hinv.ids
  ready := hs' ▸ hinv.ready
  size := hs' ▸ hinv.size
  sizes := hs' ▸ hinv.sizes
  order u := by
    subst hs'
    simp only [inFlightTo, List.flatMap_append, hinv.order u, List.append_assoc]
  front := hinv.front
  rest := hs' ▸ hinv.rest

/-- **Step lemma.** -/
theorem step (hinv : OutgoingInv P s h) {i : ServerIn} {o : List Unit}
    (hok : OutputKept (s, h) i) (hs : (serverMachine P).step s i = .ok (s', o)) :
    OutgoingInv P s' (s.record i h) := by
  have hstep := serverMachine_step hs
  replace hs := serverMachine_eq_ok hs
  cases i with
  | event eve oc =>
    simp only [Server.step, Server.record] at hs ⊢
    split_ifs at hs ⊢ with hbusy
    · obtain rfl := Except.ok.inj hs
      exact hinv
    · obtain ⟨⟨io, out⟩, hevent, hs⟩ := Except.bind_eq_ok_iff.mp hs
      obtain rfl := Except.ok.inj hs
      rw [hevent]
      exact hinv.event (hok hbusy) hevent
  | send w =>
    cases hids : s.sending.uidList with
    | nil =>
      simp only [Server.step, Server.send, Server.record, hids] at hs ⊢
      obtain rfl := Except.ok.inj hs
      exact hinv
    | cons id ids =>
      simp only [Server.step, Server.send, Server.record, hids] at hs ⊢
      obtain ⟨i, hi, hs⟩ := Except.bind_eq_ok_iff.mp hs
      obtain ⟨⟨io, out⟩, hsend, hs⟩ := Except.bind_eq_ok_iff.mp hs
      obtain rfl := Except.ok.inj hs
      have hkeeps := hok id (by rw [hids]; rfl)
      simp only [hi] at hkeeps ⊢
      exact hinv.send hids hi hkeeps hsend
  | game g =>
    obtain ⟨⟨sv, out⟩, hhandle, hs⟩ := Except.bind_eq_ok_iff.mp hs
    simp only [Server.record, hhandle]
    exact hinv.game (Except.ok.inj hs).symm
  | node => exact hinv.other (.inl rfl) hstep
  | netIoMsg => exact hinv.other (.inr (.inl rfl)) hstep
  | gameMsg => exact hinv.other (.inr (.inr rfl)) hstep

end OutgoingInv

/-- What a client reads from the bytes that have reached it: a length byte and a frame of that
length, and again. -/
def clientFrames (bytes : List UInt8) : List (List UInt8) :=
  LengthPrefix.frames UInt8.toNat bytes

/-- The body of the frame of a message. -/
def Broadcast.body (P : Protobuf) (b : Broadcast) : List UInt8 :=
  b.protoType.code :: P.pack b.buffer

/-- A client reads the first messages of those that its bytes are the front of. -/
theorem clientFrames_prefix {P : Protobuf} (hshort : ∀ m, (P.pack m).length ≤ 254)
    {bs : List Broadcast} {bytes : List UInt8}
    (h : bytes <+: (bs.map (Broadcast.frame P)).flatten) :
    clientFrames bytes <+: bs.map (Broadcast.body P) := by
  have hbodies : (bs.map fun b => (UInt8.ofNat ((P.pack b.buffer).length + 1), b.body P)).map
      Prod.snd = bs.map (Broadcast.body P) := by
    rw [List.map_map]
    rfl
  rw [← hbodies]
  refine LengthPrefix.frames_of_prefix (fun f hf => ?_) ?_
  · obtain ⟨b, -, rfl⟩ := List.mem_map.mp hf
    exact (toNat_size (hshort b.buffer)).symm
  · rw [List.flatMap_map]
    exact h

/-- A client that has got all of its bytes reads all of its messages. -/
theorem clientFrames_all {P : Protobuf} (hshort : ∀ m, (P.pack m).length ≤ 254)
    {bs : List Broadcast} :
    clientFrames (bs.map (Broadcast.frame P)).flatten = bs.map (Broadcast.body P) := by
  have hsizes : ∀ f ∈ bs.map fun b => (UInt8.ofNat ((P.pack b.buffer).length + 1), b.body P),
      f.2.length = f.1.toNat := by
    intro f hf
    obtain ⟨b, -, rfl⟩ := List.mem_map.mp hf
    exact (toNat_size (hshort b.buffer)).symm
  have hnone : LengthPrefix.Incomplete UInt8.toNat [] := trivial
  have hcut := LengthPrefix.frames_flatMap_append hsizes hnone
  rw [List.append_nil, List.flatMap_map, List.map_map] at hcut
  exact hcut

/-- **Every client reads its messages, once and in order.** In every run in which `send_buffer`
gives up no block early and `send_data` queues no byte behind a zero byte, and for every slot: the
messages that the game services have emitted for it are `past`, whose frames were given to its
earlier connections, then `bs`, whose frames were given to its present one, then those on their way.
The bytes accepted for the connection are the front of the frames of `bs`, and all of them but what
is pending while it is open; so what the client reads are the first messages of `bs`, and all of
them once nothing is pending. -/
theorem clients_read_responses {P : Protobuf} {listenFd netlogicFd : ℤ} {ss : SocketServer}
    {sv : Services} {is : List ServerIn} {os : List Unit} {s : Server} {h : Outgoing}
    (hstart : networkIoServiceStart listenFd netlogicFd = .ok ss)
    (hshort : ∀ m, (P.pack m).length ≤ 254)
    (hrun : (outgoingMachine P).Exec OutputKept (Server.start ss sv, .start) is os (s, h))
    (u : Uid) :
    ∃ past bs later, copiesTo u h.emitted = past ++ bs ++ later ∧
      past.map (Broadcast.frame P) = h.before u ∧
      bs.map (Broadcast.frame P) = h.given u ∧
      later.map (Broadcast.frame P) = inFlightTo P u s ∧
      h.accepted u <+: (h.given u).flatten ∧
      clientFrames (h.accepted u) <+: bs.map (Broadcast.body P) ∧
      (s.io.Open u →
        h.accepted u ++ (s.io.socketPool u).pending = (h.given u).flatten ∧
        ((s.io.socketPool u).pending = [] →
          clientFrames (h.accepted u) = bs.map (Broadcast.body P))) := by
  have hinv : OutgoingInv P s h := by
    refine hrun.invariant (P := fun q => OutgoingInv P q.1 q.2) (.init hstart sv) ?_
    rintro ⟨s, h⟩ i ⟨s', h'⟩ o hinv hok hstep
    obtain ⟨hs, rfl⟩ := Machine.withGhost_step_eq_ok.mp hstep
    exact hinv.step hok hs
  have horder := hinv.order u
  rw [← map_frame_copiesTo] at horder
  obtain ⟨sent, later, hcopies, hsent, hlater⟩ := List.map_eq_append_iff.mp horder
  obtain ⟨past, bs, rfl, hpast, hgiven⟩ := List.map_eq_append_iff.mp hsent
  have hfront := hinv.front u
  refine ⟨past, bs, later, hcopies, hpast, hgiven, hlater, hfront, ?_, fun hopen => ?_⟩
  · rw [← hgiven] at hfront
    exact clientFrames_prefix hshort hfront
  · have hrest := hinv.rest u hopen
    refine ⟨hrest, fun hnil => ?_⟩
    rw [hnil, List.append_nil, ← hgiven] at hrest
    rw [hrest]
    exact clientFrames_all hshort

instance (q : Server × Outgoing) (i : ServerIn) : Decidable (OutputKept q i) := by
  unfold OutputKept
  split
  · infer_instance
  · have hhead (id : ℤ) : Decidable (match poolIndex id with
        | .ok u => SendKeeps (q.1.io.socketPool u) q.1.sending.buffer ‹WriteRes›
        | .error _ => True) := by
      split <;> infer_instance
    infer_instance
  · infer_instance

/-- A client connects and logs in. The first message to it is accepted at once, the second waits
and is accepted in two parts. It asks to start, and the answer is on its way. -/
def loginAnswered : List ServerIn :=
  [.event ⟨1, true, false, false⟩ ⟨⟨some 9, true, true⟩, [], []⟩, .netIoMsg, .game 0,
    readsFrame [.data [5], .data ['L'.toUInt8, 10, 2, 97, 98]], .netIoMsg, .game 0,
    .gameMsg, .gameMsg, .node, .send (.wrote 12), .node, .send .eagain,
    .event ⟨3, false, true, false⟩ ⟨⟨none, true, true⟩, [], [.wrote 1, .eintr, .wrote 3]⟩,
    readsFrame [.data [3], .data ['S'.toUInt8, 8, 1]], .netIoMsg, .game 0, .gameMsg, .gameMsg]

theorem clients_read_responses_run : ∃ ss s h os, networkIoServiceStart 7 8 = .ok ss ∧
    (outgoingMachine oneByteProtobuf).Exec OutputKept
      (Server.start ss (Services.start (fun _ => zeroHeap) (fun _ => 7) 0), .start)
      loginAnswered os (s, h) ∧
    h.before 3 = [] ∧ h.given 3 = [[11, 108, 8, 1, 16, 3, 24, 0, 32, 0, 40, 0], [3, 105, 8, 1]] ∧
    inFlightTo oneByteProtobuf 3 s = [[3, 115, 8, 1]] ∧
    clientFrames (h.accepted 3) = [[108, 8, 1, 16, 3, 24, 0, 32, 0, 40, 0], [105, 8, 1]] ∧
    ∃ past bs later, copiesTo 3 h.emitted = past ++ bs ++ later ∧
      past.map (Broadcast.frame oneByteProtobuf) = h.before 3 ∧
      bs.map (Broadcast.frame oneByteProtobuf) = h.given 3 ∧
      later.map (Broadcast.frame oneByteProtobuf) = inFlightTo oneByteProtobuf 3 s ∧
      clientFrames (h.accepted 3) <+: bs.map (Broadcast.body oneByteProtobuf) := by
  obtain ⟨ss, hstart, hrun⟩ : ∃ ss, networkIoServiceStart 7 8 = .ok ss ∧
      ((outgoingMachine oneByteProtobuf).run OutputKept
        (Server.start ss (Services.start (fun _ => zeroHeap) (fun _ => 7) 0), .start)
        loginAnswered).map (fun p => (p.1.2.before 3, p.1.2.given 3,
          inFlightTo oneByteProtobuf 3 p.1.1, clientFrames (p.1.2.accepted 3))) =
      some ([], [[11, 108, 8, 1, 16, 3, 24, 0, 32, 0, 40, 0], [3, 105, 8, 1]], [[3, 115, 8, 1]],
        [[108, 8, 1, 16, 3, 24, 0, 32, 0, 40, 0], [105, 8, 1]]) :=
    ⟨_, rfl, by decide +kernel⟩
  obtain ⟨⟨s, h⟩, os, hrun, hobs⟩ := (outgoingMachine oneByteProtobuf).exec_of_run_map hrun
  obtain ⟨hbefore, hobs⟩ := Prod.mk.inj hobs
  obtain ⟨hgiven, hobs⟩ := Prod.mk.inj hobs
  obtain ⟨hflight, hframes⟩ := Prod.mk.inj hobs
  have hshort : ∀ m, (oneByteProtobuf.pack m).length ≤ 254 := by
    intro m
    cases m <;> exact Nat.le_of_ble_eq_true rfl
  obtain ⟨past, bs, later, hcopies, hpast, hbs, hlater, -, hread, -⟩ :=
    clients_read_responses hstart hshort hrun 3
  exact ⟨ss, s, h, os, hstart, hrun, hbefore, hgiven, hflight, hframes, past, bs, later, hcopies,
    hpast, hbs, hlater, hread⟩

end GameServer
