import GameServer.Game.Registration
import GameServer.Library.Behind
import GameServer.Server.Alone
import GameServer.Server.Service

/-!
# Three tables about the same clients

Net IO knows a client by its slot of the pool, net logic by its entry of the routing table, and a
game service by the entry of `uid_2_playid` that it owns and by a player slot. They learn of each
other's changes through queues: net logic is behind net IO by the messages in `NETIO_2_NETLOGIC`,
and the game services are behind net logic by those in their queues. Once these queues are empty
the tables agree.

This holds while no write to a client fails, the messages of each uid are handled in order and
every `TYPE_SUCCESS` finds a place.

## Main definitions

* `SocketServer.life`, `Router.route`, `Router.life` : what the tables say of a uid.
* `ownerMachine` : the server with the owners of the entries.
* `GameLogic.Admits`, `KeepsInStep` : the condition on the steps.
* `InStep` : each table follows the one before it.
* `TablesAgree` : the tables say the same.

## Main results

* `InStep.step`, `InStep.run` : the invariant is kept.
* `tables_agree_at_rest` : with empty queues the tables agree.
-/

namespace GameServer

/-! ### What the tables say of a uid -/

/-- Whether the connection is open. -/
def SocketServer.life (ss : SocketServer) (u : Uid) : Life := if ss.Open u then .opened else .closed

/-- The service of a uid, if it has one. -/
def Router.route (r : Router) (u : Uid) : Option ServiceId :=
  (List.finRange gameLogicServiceNum).find? fun g => r.RoutesTo u g

/-- A client that has a service is connected. -/
def Life.ofRoute : Option ServiceId → Life
  | none => .closed
  | some _ => .opened

/-- Whether net logic takes the uid to be connected. -/
def Router.life (r : Router) (u : Uid) : Life := .ofRoute (r.route u)

/-- What a message of net IO tells of its connection. -/
def nextLife (life : Life) (msg : IoMsg) : Option Life := life.next (.push msg)

theorem SocketServer.life_of_open {ss : SocketServer} {u : Uid} (h : ss.Open u) :
    ss.life u = .opened :=
  if_pos h

theorem SocketServer.life_of_not_open {ss : SocketServer} {u : Uid} (h : ¬ss.Open u) :
    ss.life u = .closed :=
  if_neg h

theorem SocketServer.life_eq_opened {ss : SocketServer} {u : Uid} :
    ss.life u = .opened ↔ ss.Open u := by
  by_cases hopen : ss.Open u
  · exact iff_of_true (life_of_open hopen) hopen
  · rw [life_of_not_open hopen]
    exact iff_of_false (by decide) hopen

theorem SocketServer.life_congr {ss ss' : SocketServer} {u : Uid} (h : ss'.Open u ↔ ss.Open u) :
    ss'.life u = ss.life u :=
  if_congr h rfl rfl

theorem Life.ofRoute_eq_opened {route : Option ServiceId} :
    Life.ofRoute route = .opened ↔ ∃ g, route = some g := by
  cases route with
  | none => exact iff_of_false (by decide) fun ⟨_, h⟩ => nomatch h
  | some g => exact iff_of_true rfl ⟨g, rfl⟩

namespace Router

variable {r r' : Router} {u : Uid} {g : ServiceId}

theorem routesTo_of_route (h : r.route u = some g) : r.RoutesTo u g := by
  unfold route at h
  have hfound := List.find?_some h
  exact of_decide_eq_true hfound

theorem route_eq_some : r.route u = some g ↔ r.RoutesTo u g := by
  refine ⟨routesTo_of_route, fun h => ?_⟩
  cases hfind : r.route u with
  | none =>
    unfold route at hfind
    exact absurd (decide_eq_true h) (List.find?_eq_none.mp hfind g (List.mem_finRange g))
  | some g' =>
    have hg' : r.Serves u (some g') := routesTo_of_route hfind
    have hg : r.Serves u (some g) := h
    exact hg'.unique hg

theorem route_congr (h : r'.sockId2gameLogic u = r.sockId2gameLogic u) :
    r'.route u = r.route u := by
  ext g
  rw [route_eq_some, route_eq_some, RoutesTo, RoutesTo, h]

theorem route_of_unrouted (h : r.Unrouted u) : r.route u = none := by
  cases hroute : r.route u with
  | none => rfl
  | some g => exact absurd h (route_eq_some.mp hroute).not_unrouted

theorem route_assign (uid : Uid) (g : ServiceId) :
    (r.assign uid g).route = Function.update r.route uid (some g) := by
  funext u
  by_cases hu : u = uid
  · subst hu
    rw [Function.update_self]
    exact route_eq_some.mpr (r.routesTo_assign u g)
  · rw [Function.update_of_ne hu]
    exact route_congr (Function.update_of_ne hu ..)

theorem route_release (uid : Uid) (g : ServiceId) :
    (r.release uid g).route = Function.update r.route uid none := by
  funext u
  by_cases hu : u = uid
  · subst hu
    rw [Function.update_self]
    exact route_of_unrouted (Function.update_self ..)
  · rw [Function.update_of_ne hu]
    exact route_congr (Function.update_of_ne hu ..)

end Router

theorem RouteInv.route_eq_none {r : Router} {u : Uid} (h : RouteInv r) :
    r.route u = none ↔ r.Unrouted u := by
  refine ⟨fun hnone => ?_, Router.route_of_unrouted⟩
  rcases h.entry u with hun | ⟨g, hg⟩
  · exact hun
  · cases hnone.symm.trans (Router.route_eq_some.mpr hg)

theorem RouteInv.serves {r : Router} (h : RouteInv r) (u : Uid) : r.Serves u (r.route u) := by
  cases hroute : r.route u with
  | none => exact h.route_eq_none.mp hroute
  | some g => exact Router.route_eq_some.mp hroute

/-! ### Net logic behind net IO -/

/-- A step of the slots pushes what tells of it. -/
theorem SlotStep.behind {ends fails : Uid → Prop} {ss ss' : SocketServer} {out l : List IoMsg}
    {view : Uid → Life} (hs : SlotStep ends fails ss ss' out) (hfail : ∀ u, ss.Open u → ¬fails u)
    (h : Behind IoMsg.uid nextLife view l ss.life) :
    Behind IoMsg.uid nextLife view (l ++ out) ss'.life := by
  cases hs with
  | quiet hsame =>
    rw [List.append_nil]
    have hlife : ss'.life = ss.life := funext fun u => SocketServer.life_congr (hsame u)
    rw [hlife]
    exact h
  | frame u data hopen hsame =>
    refine h.push ?_ fun v _ => SocketServer.life_congr (hsame v)
    change nextLife (ss.life u) (.data u data.length data) = some (ss'.life u)
    rw [SocketServer.life_of_open hopen, SocketServer.life_of_open ((hsame u).mpr hopen)]
    rfl
  | opened u hnew hset =>
    refine h.push ?_ fun v hv => SocketServer.life_congr ((hset v).trans (or_iff_left hv))
    change nextLife (ss.life u) (.success u) = some (ss'.life u)
    rw [SocketServer.life_of_not_open hnew,
      SocketServer.life_of_open ((hset u).mpr (.inr rfl))]
    rfl
  | closed u hend hopen hset =>
    refine h.push ?_ fun v hv => SocketServer.life_congr ((hset v).trans (and_iff_left hv))
    change nextLife (ss.life u) (.close u) = some (ss'.life u)
    rw [SocketServer.life_of_open hopen,
      SocketServer.life_of_not_open fun hu => ((hset u).mp hu).2 rfl]
    rfl
  | lost u hf hopen hset => exact absurd hf (hfail u hopen)

/-- What net logic does with a message that tells of a connection as it knows it: it changes the
entry of the uid, and passes the message on to the service of the uid. -/
theorem RouteStep.follows {P : Protobuf} {r r' : Router} {msg : IoMsg} {out : List NetOut}
    {life : Life} (hstep : RouteStep P r msg r' out) (hinv : RouteInv r)
    (hque : r.que2Gamelogic = .netlogic2Game) (hlife : nextLife (r.life msg.uid) msg = some life) :
    ∃ g m route, out.filterMap NetOut.toGame = [(g, m)] ∧ out.filterMap NetOut.toNetIo = [] ∧
      m.uid = msg.uid ∧ nextTurn (r.route msg.uid) (g, m) = some route ∧
      r'.route = Function.update r.route msg.uid route ∧ Life.ofRoute route = life := by
  cases hstep with
  | routed uid g hnew hroom =>
    rw [IoMsg.uid, Router.life, Router.route_of_unrouted hnew] at hlife
    refine ⟨g, .success uid, some g, Router.sendsTo_toGame hque .., Router.sendsTo_toNetIo .., rfl,
      ?_, Router.route_assign uid g, Option.some.inj hlife⟩
    rw [IoMsg.uid, Router.route_of_unrouted hnew]
    rfl
  | refused uid hused =>
    cases hroute : r.route uid with
    | none => exact absurd (hinv.route_eq_none.mp hroute) hused
    | some g =>
      rw [IoMsg.uid, Router.life, hroute] at hlife
      cases hlife
  | forwarded uid len data req g hreq hroute =>
    have hg := Router.route_eq_some.mpr hroute
    rw [IoMsg.uid, Router.life, hg] at hlife
    refine ⟨g, .data uid req, some g, Router.sendsTo_toGame hque .., Router.sendsTo_toNetIo .., rfl,
      ?_, ?_, Option.some.inj hlife⟩
    · rw [IoMsg.uid, hg]
      exact if_pos rfl
    · rw [IoMsg.uid, ← hg, Function.update_eq_self]
      rfl
  | dropped uid len data req hreq hnone =>
    rw [IoMsg.uid, Router.life, Router.route_of_unrouted hnone] at hlife
    cases hlife
  | closed uid g hroute =>
    have hg := Router.route_eq_some.mpr hroute
    rw [IoMsg.uid, Router.life, hg] at hlife
    refine ⟨g, .close uid, none, Router.sendsTo_toGame hque .., Router.sendsTo_toNetIo .., rfl,
      ?_, Router.route_release uid g, Option.some.inj hlife⟩
    rw [IoMsg.uid, hg]
    exact if_pos rfl
  | closedUnrouted uid hnone =>
    rw [IoMsg.uid, Router.life, Router.route_of_unrouted hnone] at hlife
    cases hlife

/-! ### The game services behind net logic -/

/-- The registration that a message asks for succeeds. -/
def GameLogic.Admits (gl : GameLogic) : GameMsg → Prop
  | .success uid => (gameRouteAppend gl uid).1 = 0
  | _ => True

instance (gl : GameLogic) : (msg : GameMsg) → Decidable (gl.Admits msg)
  | .success uid => inferInstanceAs (Decidable ((gameRouteAppend gl uid).1 = 0))
  | .data _ _ | .close _ => .isTrue trivial

/-- A registration that succeeds puts the entry in use. -/
theorem GameStep.registered_of_success {gl gl' : GameLogic} {uid : Uid} {out : List Broadcast}
    (hstep : GameStep gl (.success uid) gl' out) (hret : gl.Admits (.success uid)) :
    gl'.Registered uid := by
  change (gameRouteAppend gl uid).1 = 0 at hret
  cases hstep with
  | ignored hig => exact hig.elim
  | success =>
    rcases gameRouteAppend_cases gl uid with he | ⟨m, i, -, -, -, -, he⟩ | ⟨m, i, -, -, he⟩
    · rw [he] at hret
      cases hret
    · have hentry : (gl.register uid m i).uid2Playid uid = ⟨.typeUsing, m, i⟩ :=
        Function.update_self ..
      rw [he]
      exact congrArg PlayerId.state hentry
    · rw [he] at hret
      cases hret

/-- An entry that has come into use belongs to the service that put it in use. -/
theorem ownerAfter_of_new {g : ServiceId} {before after : Uid → PlayerId}
    {owner : Uid → Option ServiceId} {u : Uid} (hbefore : (before u).state = .typeInvalid)
    (hafter : (after u).state = .typeUsing) : ownerAfter g before after owner u = some g := by
  have hfree : (before u).state ≠ .typeUsing := StateType.ne_typeUsing_iff.mpr hbefore
  rw [ownerAfter, if_pos hafter, if_neg hfree]

/-- The tables of registration over other entries that agree with their own at the uid of the
message. -/
theorem GameStep.tableInv_withEntries {gl gl' : GameLogic} {msg : GameMsg} {out : List Broadcast}
    {e : Uid → PlayerId} (hstep : GameStep gl msg gl' out)
    (hself : (e msg.uid).Agrees (gl.uid2Playid msg.uid)) (h : TableInv (gl.withEntries e)) :
    ∃ e', TableInv (gl'.withEntries e') ∧ (∀ v, v ≠ msg.uid → e' v = e v) ∧
      (e' msg.uid).Agrees (gl'.uid2Playid msg.uid) := by
  by_cases hlogin : ∃ uid req, msg = .data uid (.logReq (some req))
  · -- A login changes no table of registration, whomever its sender is told of.
    obtain ⟨uid, req, rfl⟩ := hlogin
    refine ⟨e, ?_, fun _ _ => rfl, hstep.entry_of_data ▸ hself⟩
    cases hstep with
    | ignored => exact h
    | login =>
      have hsame : SameTables (gl.withEntries e) ((gl.login uid req).withEntries e) :=
        ⟨rfl, rfl, rfl, (sameTables_login gl uid req).state_eq⟩
      exact hsame.tableInv h
  · have hnone : gl.introduced msg = [] := by
      unfold GameLogic.introduced
      split
      · next uid req => exact absurd ⟨uid, req, rfl⟩ hlogin
      · rfl
    have hagrees : gl.AgreesAt e msg := by
      rintro v (rfl | hv)
      · exact hself
      · rw [hnone] at hv
        exact absurd hv List.not_mem_nil
    obtain ⟨e', hstep', hother, hself'⟩ := hstep.withEntries hagrees
    exact ⟨e', h.step hstep', hother, hself'⟩

/-- The entries in use among those of a service are those that it owns. -/
theorem OwnEntries.registered_iff {s : Owned} {g : ServiceId} {e : Uid → PlayerId}
    (h : OwnEntries s g e) (hinv : OwnedInv s) {u : Uid} :
    (e u).state = .typeUsing ↔ s.owner u = some g := by
  constructor
  · intro hused
    by_contra hne
    cases hused.symm.trans (h.free u hne)
  · intro howner
    rw [h.own u howner]
    by_contra hne
    cases howner.symm.trans ((hinv.owner_none u).mpr (StateType.ne_typeUsing_iff.mp hne))

/-! ### The server -/

/-- The owners after a step of the server. -/
def Server.ownerNext (s : Server) (i : ServerIn) (owner : Uid → Option ServiceId) :
    Uid → Option ServiceId :=
  match i with
  | .game g =>
    match s.services.handle g with
    | .ok (sv, _) => ownerAfter g s.services.uid2Playid sv.uid2Playid owner
    | .error _ => owner
  | _ => owner

/-- The server with the owners of the entries in use. -/
def ownerMachine (P : Protobuf) : Machine (Server × (Uid → Option ServiceId)) ServerIn Unit Fault :=
  (serverMachine P).withGhost Server.ownerNext

/-- The condition on the next step: no write to a client fails, a game service handles the messages
of each uid in order, and its registrations succeed. -/
def KeepsInStep (q : Server × (Uid → Option ServiceId)) : ServerIn → Prop
  | .event eve oc => ¬q.1.Busy → q.1.io.Open eve.sP → eve.read = false → eve.write = true →
    .fail ∉ oc.writes
  | .send w => w ≠ .fail
  | .game g => HandledInOrder ⟨q.1.services, q.2⟩ (.game g) ∧
    ∀ msg ∈ q.1.services.next g, (q.1.services.game g).Admits msg
  | _ => True

instance (q : Server × (Uid → Option ServiceId)) : (i : ServerIn) → Decidable (KeepsInStep q i)
  | .event eve oc => inferInstanceAs (Decidable (¬q.1.Busy → q.1.io.Open eve.sP →
      eve.read = false → eve.write = true → .fail ∉ oc.writes))
  | .send w => inferInstanceAs (Decidable (w ≠ .fail))
  | .game g => inferInstanceAs (Decidable (HandledInOrder ⟨q.1.services, q.2⟩ (.game g) ∧
      ∀ msg ∈ q.1.services.next g, (q.1.services.game g).Admits msg))
  | .node | .netIoMsg | .gameMsg => .isTrue trivial

/-- A node that does not make net IO close a connection. -/
def NetIoNode.IsBroadcast : NetIoNode → Prop
  | .broadcast _ _ _ => True
  | _ => False

/-- Each table follows the one before it through the queue between them, and the entries that a game
service owns belong to its slots. -/
structure InStep (s : Server) (owner : Uid → Option ServiceId) : Prop where
  ids : IdInv s.io
  orders : ∀ n ∈ s.toNetIo, n.IsBroadcast
  routes : RouteInv s.services.router
  que : s.services.router.que2Gamelogic = .netlogic2Game
  owner_none : ∀ u, owner u = none ↔ (s.services.uid2Playid u).state = .typeInvalid
  reports : Behind IoMsg.uid nextLife s.services.router.life s.fromNetIo s.io.life
  turns : Behind waitingUid nextTurn owner s.services.waiting s.services.router.route
  tables : ∀ g, ∃ e, OwnEntries ⟨s.services, owner⟩ g e ∧
    TableInv ((s.services.game g).withEntries e)

namespace InStep

variable {P : Protobuf} {s s' : Server} {owner : Uid → Option ServiceId}

theorem ownedInv (h : InStep s owner) : OwnedInv ⟨s.services, owner⟩ where
  que := h.que
  owner_none := h.owner_none
  turn u := ⟨owner u, s.services.router.route u, h.turns u, h.routes.serves u, .inr rfl⟩

theorem init {listenFd netlogicFd : ℤ} {ss : SocketServer}
    (hstart : networkIoServiceStart listenFd netlogicFd = .ok ss)
    (heap : ServiceId → MapId → SlotId → Player) (gamelogSocket : ServiceId → ℤ)
    (gameServiceId : ℤ) :
    InStep (Server.start ss (Services.start heap gamelogSocket gameServiceId)) fun _ => none where
  ids u hu := absurd hu (networkIoServiceStart_not_open hstart u)
  orders _ hn := absurd hn List.not_mem_nil
  routes := RouteInv.init gamelogSocket gameServiceId
  que := rfl
  owner_none _ := iff_of_true rfl rfl
  reports := by
    have hun (u : Uid) : (routerCreat gamelogSocket gameServiceId).Unrouted u := rfl
    have hlife : ss.life = (routerCreat gamelogSocket gameServiceId).life := by
      funext u
      have hnone : (routerCreat gamelogSocket gameServiceId).route u = none :=
        Router.route_of_unrouted (hun u)
      rw [SocketServer.life_of_not_open (networkIoServiceStart_not_open hstart u), Router.life,
        hnone]
      rfl
    change Behind _ _ (routerCreat gamelogSocket gameServiceId).life [] ss.life
    rw [hlife]
    exact .refl _
  turns u := by
    have hun : (routerCreat gamelogSocket gameServiceId).Unrouted u := rfl
    exact congrArg some (Router.route_of_unrouted hun).symm
  tables g := ⟨fun _ => ⟨.typeInvalid, 0, 0⟩, ⟨fun _ _ => rfl, fun _ _ => rfl⟩,
    TableInv.init (heap g)⟩

/-- The tables of registration are a matter of the game services. -/
theorem tables_of_eq (h : InStep s owner) {sv : Services}
    (hgame : sv.gameLogic = s.services.gameLogic)
    (hentries : sv.uid2Playid = s.services.uid2Playid) (g : ServiceId) :
    ∃ e, OwnEntries ⟨sv, owner⟩ g e ∧ TableInv ((sv.game g).withEntries e) := by
  obtain ⟨e, hown, htable⟩ := h.tables g
  refine ⟨e, ⟨fun u hu => ?_, hown.free⟩, ?_⟩
  · rw [hown.own u hu, hentries]
  · rw [Services.game, hgame]
    exact htable

/-- A message that net logic takes from the queue of net IO. -/
theorem routed (h : InStep s owner) {msg : IoMsg} {rest : List IoMsg} {r : Router}
    {out : List NetOut} (hmsg : s.fromNetIo = msg :: rest)
    (hroute : RouteStep P s.services.router msg r out) :
    InStep { s with
      services := { s.services with
        router := r, waiting := s.services.waiting ++ out.filterMap NetOut.toGame }
      fromNetIo := rest
      toNetIo := s.toNetIo ++ out.filterMap NetOut.toNetIo } owner := by
  have hreports := h.reports
  rw [hmsg] at hreports
  obtain ⟨life, hlife, hrest⟩ := hreports.pop_front r.life
  obtain ⟨g, m, route, hgame, hio, huid, hnext, hr, hsame⟩ :=
    hroute.follows h.routes h.que hlife
  refine ⟨h.ids, ?_, h.routes.step hroute, hroute.arrays_eq.1.trans h.que, h.owner_none, ?_, ?_,
    h.tables_of_eq rfl rfl⟩
  · rw [hio, List.append_nil]
    exact h.orders
  · refine hrest ?_ fun v hv => ?_
    · rw [Router.life, hr, Function.update_self]
      exact hsame
    · rw [Router.life, Router.life, hr, Function.update_of_ne hv]
  · rw [hgame]
    refine h.turns.push (a := (g, m)) ?_ fun v hv => ?_
    · rw [waitingUid, huid, hr, Function.update_self]
      exact hnext
    · rw [hr, Function.update_of_ne (huid ▸ hv)]

/-- The owner of the uid of a message handled in order is where its turn goes. -/
theorem owner_handled (h : InStep s owner) {g : ServiceId} {msg : GameMsg} {gl : GameLogic}
    {out : List Broadcast} {turn : Option ServiceId}
    (hadmits : (s.services.game g).Admits msg)
    (hgame : GameStep (s.services.game g) msg gl out)
    (hturn : nextTurn (owner msg.uid) (g, msg) = some turn) :
    ownerAfter g s.services.uid2Playid gl.uid2Playid owner msg.uid = turn := by
  cases msg with
  | success uid =>
    obtain ⟨hnone, rfl⟩ := nextTurn_success hturn
    exact ownerAfter_of_new ((h.owner_none uid).mp hnone)
      (hgame.registered_of_success hadmits)
  | data uid req =>
    obtain ⟨howner, rfl⟩ := nextTurn_data hturn
    rw [← howner]
    exact h.ownedInv.ownerAfter_of_eq (congrFun hgame.entry_of_data uid)
  | close uid =>
    obtain ⟨-, rfl⟩ := nextTurn_close hturn
    refine (ownerAfter_eq_none h.owner_none uid).mpr ?_
    exact StateType.ne_typeUsing_iff.mp hgame.not_registered_of_close

/-- A message that a game service handles. -/
theorem handled (h : InStep s owner) {g : ServiceId} {msg : GameMsg}
    {rest : List (ServiceId × GameMsg)} {gl : GameLogic} {out : List Broadcast}
    (hok : KeepsInStep (s, owner) (.game g))
    (hpop : MergedQueues.pop Prod.fst g s.services.waiting = some ((g, msg), rest))
    (hnext : s.services.next g = some msg) (hgame : GameStep (s.services.game g) msg gl out) :
    InStep { s with
      services := s.services.setGame g gl rest
      fromGame := s.fromGame ++ out } (ownerAfter g s.services.uid2Playid gl.uid2Playid owner) := by
  have hinv := h.ownedInv
  have howner := (hinv.owner_of_handled hok.1 hpop).2
  refine ⟨h.ids, h.orders, h.routes, h.que, fun u => ownerAfter_eq_none h.owner_none u, h.reports,
    ?_, fun g' => ?_⟩
  · have hhead := hok.1 (g, msg) (by rw [MergedQueues.part_of_pop hpop]; rfl)
    obtain ⟨turn, hturn, hrest⟩ :=
      h.turns.pop (ownerAfter g s.services.uid2Playid gl.uid2Playid owner)
        (MergedQueues.part_of_pop_of_head hpop hhead)
        fun u hu => MergedQueues.part_of_pop_of_ne hpop hu.symm
    exact hrest (h.owner_handled (hok.2 msg hnext) hgame hturn) fun u hu =>
      hinv.ownerAfter_of_eq (hgame.entry_of_ne hu)
  · obtain ⟨e, hown, htable⟩ := h.tables g'
    by_cases hg : g' = g
    · subst hg
      obtain ⟨e', htable', hother, hself⟩ :=
        hgame.tableInv_withEntries (hown.agrees hinv howner) htable
      refine ⟨e', hown.turn hinv howner hgame hother hself, ?_⟩
      simpa only [Services.game, Services.setGame, Function.update_self] using htable'
    · have hsame : ((s.services.setGame g gl rest).game g').withEntries e =
          (s.services.game g').withEntries e := by
        simp only [Services.game, Services.setGame, Function.update_of_ne hg]
        rfl
      refine ⟨e, hown.other hg hinv howner hgame, ?_⟩
      rw [hsame]
      exact htable

/-- A step that changes neither a table nor the queues between the tables. -/
theorem of_same (h : InStep s owner) (hids : IdInv s'.io) (hlife : s'.io.life = s.io.life)
    (hservices : s'.services = s.services) (hfromNetIo : s'.fromNetIo = s.fromNetIo)
    (horders : ∀ n ∈ s'.toNetIo, n.IsBroadcast) : InStep s' owner where
  ids := hids
  orders := horders
  routes := hservices ▸ h.routes
  que := hservices ▸ h.que
  owner_none := hservices ▸ h.owner_none
  reports := by
    rw [hservices, hfromNetIo, hlife]
    exact h.reports
  turns := hservices ▸ h.turns
  tables := hservices ▸ h.tables

/-- An event that net IO handles. -/
theorem event (h : InStep s owner) {eve : Event Uid} {oc : Outcomes} {io : SocketServer}
    {out : List IoMsg} (hok : KeepsInStep (s, owner) (.event eve oc)) (hfree : ¬s.Busy)
    (hevent : disposeEvent s.io eve oc = .ok (io, out)) :
    InStep { s with io := io, fromNetIo := s.fromNetIo ++ out } owner := by
  obtain ⟨hids, hslot⟩ := disposeEvent_step h.ids hevent
  have hsucceeds (u : Uid) (hu : s.io.Open u) : ¬(u = eve.sP ∧ eve.read = false ∧
      eve.write = true ∧ .fail ∈ oc.writes) := by
    rintro ⟨rfl, hread, hwrite, hfail⟩
    exact hok hfree hu hread hwrite hfail
  exact ⟨hids, h.orders, h.routes, h.que, h.owner_none, hslot.behind hsucceeds h.reports, h.turns,
    h.tables⟩

/-- **Step lemma.** -/
theorem step (h : InStep s owner) {i : ServerIn} {o : List Unit}
    (hok : KeepsInStep (s, owner) i) (hs : (serverMachine P).step s i = .ok (s', o)) :
    InStep s' (s.ownerNext i owner) := by
  have hstep := serverMachine_step hs
  cases i with
  | event eve oc =>
    cases hstep with
    | idle => exact h
    | event _ _ hfree hevent => exact h.event hok hfree hevent
  | node =>
    cases hstep with
    | idle => exact h
    | closed uid hfree hnode =>
      -- Net logic has ordered no close.
      rcases hnode with hnode | hnode
      · exact (h.orders (.serviceFull uid) (by simp [hnode])).elim
      · exact (h.orders (.playerError uid) (by simp [hnode])).elim
    | begun size uidList buffer hfree hnode =>
      refine h.of_same h.ids rfl rfl rfl fun n hn => h.orders n ?_
      rw [hnode]
      exact List.mem_cons_of_mem _ hn
  | send w =>
    cases hstep with
    | idle => exact h
    | sent _ hids hi hsend =>
      obtain ⟨hopen, ⟨hsame, rfl⟩ | ⟨hfail, -, -⟩⟩ := sendData_cases hsend
      · refine h.of_same (hsame.idInv h.ids) ?_ rfl (List.append_nil _) h.orders
        exact funext fun u => SocketServer.life_congr (hsame.open_iff u)
      · exact absurd hfail hok
  | netIoMsg =>
    cases hstep with
    | idle => exact h
    | routed msg hmsg hroute => exact h.routed hmsg hroute
  | gameMsg =>
    cases hstep with
    | idle => exact h
    | packed b hb hpack =>
      refine h.of_same h.ids rfl rfl rfl fun n hn => ?_
      rcases List.mem_append.mp hn with hn | hn
      · exact h.orders n hn
      · rw [List.mem_singleton.mp hn]
        trivial
  | game g =>
    obtain ⟨⟨sv, out⟩, hhandle, hs⟩ := Except.bind_eq_ok_iff.mp (serverMachine_eq_ok hs)
    obtain rfl := Except.ok.inj hs
    simp only [Server.ownerNext, hhandle]
    rcases Services.handle_eq_ok hhandle with
      ⟨-, rfl, rfl⟩ | ⟨msg, rest, gl, hpop, hnext, hgame, rfl⟩
    · have hsame : ownerAfter g s.services.uid2Playid s.services.uid2Playid owner = owner :=
        funext fun u => h.ownedInv.ownerAfter_of_eq rfl
      rw [hsame]
      exact h.of_same h.ids rfl rfl rfl h.orders
    · exact h.handled hok hpop hnext hgame

/-- **Run lemma.** -/
theorem run {listenFd netlogicFd : ℤ} {ss : SocketServer}
    {heap : ServiceId → MapId → SlotId → Player} {gamelogSocket : ServiceId → ℤ}
    {gameServiceId : ℤ} {is : List ServerIn} {os : List Unit}
    (hstart : networkIoServiceStart listenFd netlogicFd = .ok ss)
    (hrun : (ownerMachine P).Exec KeepsInStep
      (Server.start ss (Services.start heap gamelogSocket gameServiceId), fun _ => none) is os
      (s, owner)) : InStep s owner := by
  refine hrun.invariant (P := fun q => InStep q.1 q.2)
    (.init hstart heap gamelogSocket gameServiceId) ?_
  rintro ⟨s, owner⟩ i ⟨s', owner'⟩ o h hok hstep
  obtain ⟨hs, rfl⟩ := Machine.withGhost_step_eq_ok.mp hstep
  exact h.step hok hs

/-- The uids that a service owns are those in its slots. -/
theorem owner_eq_some_iff (h : InStep s owner) {u : Uid} {g : ServiceId} :
    owner u = some g ↔ ∃ m i, (s.services.gameLogic g).mapPlayerSocketUid m i = some u := by
  obtain ⟨e, hown, htable⟩ := h.tables g
  constructor
  · intro howner
    have hreg : ((s.services.game g).withEntries e).Registered u :=
      (hown.registered_iff h.ownedInv).mpr howner
    exact ⟨_, _, htable.slot_of_entry u hreg⟩
  · rintro ⟨m, i, hslot⟩
    have hentry : e u = ⟨.typeUsing, m, i⟩ := htable.entry_of_slot m i u hslot
    exact (hown.registered_iff h.ownedInv).mp (congrArg PlayerId.state hentry)

end InStep

/-- Net IO, net logic and the game services say the same of every uid. -/
structure TablesAgree (s : Server) : Prop where
  routed_iff : ∀ u, s.io.Open u ↔ ∃ g, s.services.router.RoutesTo u g
  held_iff : ∀ u g, s.services.router.RoutesTo u g ↔
    ∃ m i, (s.services.gameLogic g).mapPlayerSocketUid m i = some u
  registered_iff : ∀ u, s.io.Open u ↔ (s.services.uid2Playid u).state = .typeUsing
  entry : ∀ g m i u, (s.services.gameLogic g).mapPlayerSocketUid m i = some u →
    s.services.uid2Playid u = ⟨.typeUsing, m, i⟩
  used_iff : ∀ g m i, ((s.services.gameLogic g).mapPlayer m i).state = .typeUsing ↔
    (s.services.gameLogic g).mapPlayerSocketUid m i ≠ none
  count : ∀ g, s.services.router.onlinePlayer g = (s.services.gameLogic g).playerNum

/-- With nothing in the queues between them the tables agree. -/
theorem InStep.tablesAgree {s : Server} {owner : Uid → Option ServiceId} (h : InStep s owner)
    (hio : s.fromNetIo = []) (hgame : s.services.waiting = []) : TablesAgree s := by
  have hlife : s.services.router.life = s.io.life := by
    have hreports := h.reports
    rw [hio] at hreports
    exact hreports.eq_of_nil
  have howner : owner = s.services.router.route := by
    have hturns := h.turns
    rw [hgame] at hturns
    exact hturns.eq_of_nil
  have hrouted (u : Uid) : s.io.Open u ↔ ∃ g, s.services.router.RoutesTo u g := by
    rw [← SocketServer.life_eq_opened, ← hlife, Router.life, Life.ofRoute_eq_opened]
    exact exists_congr fun g => Router.route_eq_some
  have hserved (u : Uid) (g : ServiceId) : s.services.router.RoutesTo u g ↔ owner u = some g := by
    rw [howner, Router.route_eq_some]
  refine ⟨hrouted, fun u g => (hserved u g).trans h.owner_eq_some_iff, fun u => ?_, ?_, ?_, ?_⟩
  · rw [hrouted]
    simp only [hserved]
    rw [← Option.isSome_iff_exists, Option.isSome_iff_ne_none, ne_eq, h.owner_none,
      ← StateType.ne_typeUsing_iff, not_not]
  · intro g m i u hslot
    obtain ⟨e, hown, htable⟩ := h.tables g
    rw [← hown.own u (h.owner_eq_some_iff.mpr ⟨m, i, hslot⟩)]
    exact htable.entry_of_slot m i u hslot
  · intro g m i
    obtain ⟨e, hown, htable⟩ := h.tables g
    exact htable.used_iff m i
  · intro g
    obtain ⟨e, hown, htable⟩ := h.tables g
    have hsame : registeredUids ((s.services.game g).withEntries e) =
        s.services.router.routedTo g := by
      ext u
      rw [mem_registeredUids, Router.mem_routedTo, hserved]
      exact hown.registered_iff h.ownedInv
    rw [h.routes.count g, ← hsame]
    exact htable.playerNum_eq.symm

/-- **The tables agree at rest.** In every run in which no write to a client fails, every game
service handles the messages of each uid in order and every registration succeeds, whenever the
queues from net IO to net logic and from there to the game services are empty, the open connections
of net IO are the uids that net logic has routed, each of these is held by exactly one slot, of the
service it is routed to, its entry names that slot, and `online_player` counts the players that each
service has counted. -/
theorem tables_agree_at_rest {P : Protobuf} {listenFd netlogicFd : ℤ} {ss : SocketServer}
    {heap : ServiceId → MapId → SlotId → Player} {gamelogSocket : ServiceId → ℤ}
    {gameServiceId : ℤ} {is : List ServerIn} {os : List Unit} {s : Server}
    {owner : Uid → Option ServiceId}
    (hstart : networkIoServiceStart listenFd netlogicFd = .ok ss)
    (hrun : (ownerMachine P).Exec KeepsInStep
      (Server.start ss (Services.start heap gamelogSocket gameServiceId), fun _ => none) is os
      (s, owner))
    (hio : s.fromNetIo = []) (hgame : s.services.waiting = []) : TablesAgree s :=
  (InStep.run hstart hrun).tablesAgree hio hgame

/-- Two clients connect, and the first one leaves. -/
def firstLeaves : List ServerIn :=
  [.event ⟨1, true, false, false⟩ ⟨⟨some 9, true, true⟩, [], []⟩, .netIoMsg, .game 0,
    .event ⟨1, true, false, false⟩ ⟨⟨some 10, true, true⟩, [], []⟩,
    .event ⟨3, true, false, false⟩ ⟨⟨none, true, true⟩, [.data []], []⟩, .netIoMsg, .netIoMsg,
    .game 0, .game 0]

theorem tables_agree_at_rest_run : ∃ ss s owner os, networkIoServiceStart 7 8 = .ok ss ∧
    (ownerMachine oneByteProtobuf).Exec KeepsInStep
      (Server.start ss (Services.start (fun _ => zeroHeap) (fun _ => 7) 0), fun _ => none)
      firstLeaves os (s, owner) ∧
    TablesAgree s ∧ s.services.router.onlinePlayer 0 = 1 ∧ s.io.Open 4 := by
  obtain ⟨ss, hstart, hrun⟩ : ∃ ss, networkIoServiceStart 7 8 = .ok ss ∧
      ((ownerMachine oneByteProtobuf).run KeepsInStep
        (Server.start ss (Services.start (fun _ => zeroHeap) (fun _ => 7) 0), fun _ => none)
        firstLeaves).map (fun p => (p.1.1.fromNetIo, p.1.1.services.waiting,
          p.1.1.services.router.onlinePlayer 0, decide (p.1.1.io.Open 4))) =
      some ([], [], 1, true) :=
    ⟨_, rfl, by decide +kernel⟩
  obtain ⟨⟨s, owner⟩, os, hrun, hobs⟩ := (ownerMachine oneByteProtobuf).exec_of_run_map hrun
  obtain ⟨hio, hobs⟩ := Prod.mk.inj hobs
  obtain ⟨hwaiting, hobs⟩ := Prod.mk.inj hobs
  obtain ⟨honline, hopen⟩ := Prod.mk.inj hobs
  exact ⟨ss, s, owner, os, hstart, hrun, tables_agree_at_rest hstart hrun hio hwaiting, honline,
    of_decide_eq_true hopen⟩

end GameServer
