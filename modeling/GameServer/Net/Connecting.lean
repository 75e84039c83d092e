import GameServer.EventLoop
import GameServer.Net.Routes
import Mathlib.Data.Fintype.Card
import Mathlib.Data.List.ReduceOption

/-!
# The connections of the game services to net logic

Net logic listens, and each game service binds a port of its own before it connects.
`accept_gamelog_service_connect` stores the socket of an accepted connection by the port that it
comes from, closes the connections from other ports, and ends when the connections that it stored
are as many as there are game services. It does not look at which services they come from.

The parameters are the outcomes of the system calls: what each `accept` returns, and which
descriptors `epoll_ctl` takes. A new socket for a service replaces the one before, and an entry that
no connection has set holds what `malloc` left in it.

## Main definitions

* `NetLogic`, `netLogicCreat`, `connectNetioService`, `acceptGamelogServiceConnect`.
* `Epoll` : what `epoll_ctl` answers.
* `EveryServiceConnected` : every game service has a socket of its own.
* `WakesServices` : the wake-ups go to sockets of services.

## Main results

* `acceptGamelogServiceConnect_eq_ok` : what a call that returns 0 has accepted and stored.
* `gamelogSocket_injective` : the sockets after such a call can be open, and differ.
* `every_service_connected_iff` : every service is connected if and only if the first four
  connections that count come from four services.
* `wakeups_reach_services` : then every wake-up goes to a game service.
-/

namespace GameServer

/-! ### The state -/

/-- `service`. -/
structure Service where
  serviceId : ℤ
  sockFd : ℤ
  type : ServiceType
deriving DecidableEq, Repr

/-- The part of `net_logic` that is set up when the services connect, with the descriptors that its
epoll watches. -/
structure NetLogic where
  route : Router
  servicePool : Fin maxService → Service
  watched : List ℤ

/-- What `epoll_ctl` answers when a descriptor is to be watched with those that it watches already:
it takes none that cannot be open, and none twice. -/
structure Epoll where
  takes : List ℤ → ℤ → Bool
  negative : ∀ watched fd, fd < 0 → takes watched fd = false
  twice : ∀ watched, ∀ fd ∈ watched, takes watched fd = false

/-- The epoll of a process in which the descriptors below `n` are open. -/
def Epoll.below (n : ℤ) : Epoll where
  takes watched fd := decide (0 ≤ fd ∧ fd < n ∧ fd ∉ watched)
  negative _ _ hfd := decide_eq_false fun h => absurd h.1 hfd.not_ge
  twice _ _ hfd := decide_eq_false fun h => h.2.2 hfd

/-- A connection that `accept` returns, with the port that it comes from. -/
structure Accepted where
  socket : ℤ
  port : ℕ
deriving DecidableEq, Repr

/-- `PORT_GAME_LOGIC_SERVICE_FIRST` to `PORT_GAME_LOGIC_SERVICE_FOURTH`. -/
abbrev portGameLogicServiceFirst : ℕ := 8003

@[inherit_doc portGameLogicServiceFirst] abbrev portGameLogicServiceSecond : ℕ := 8004

@[inherit_doc portGameLogicServiceFirst] abbrev portGameLogicServiceThird : ℕ := 8005

@[inherit_doc portGameLogicServiceFirst] abbrev portGameLogicServiceFourth : ℕ := 8006

/-- `SERVICE_ID_GAME_FIRST + i`. -/
def serviceIdGame (i : ServiceId) : Fin maxService := ⟨4 + i.val, Nat.add_lt_add_left i.isLt 4⟩

theorem serviceIdGame_injective : Function.Injective serviceIdGame := fun _ _ h =>
  Fin.ext (Nat.add_left_cancel (Fin.mk.inj h))

/-- The service whose port this is. -/
def Accepted.service (c : Accepted) : Option ServiceId :=
  if c.port = portGameLogicServiceFirst then some 0
  else if c.port = portGameLogicServiceSecond then some 1
  else if c.port = portGameLogicServiceThird then some 2
  else if c.port = portGameLogicServiceFourth then some 3
  else none

namespace NetLogic

/-- What is stored of an accepted connection. One from an unknown port is closed. -/
def store (nl : NetLogic) (c : Accepted) : NetLogic :=
  match c.service with
  | some g => { nl with
      route := { nl.route with
        gamelogSocket := Function.update nl.route.gamelogSocket g c.socket } }
  | none => nl

/-- The entry of a game service in `service_pool`. -/
def setService (nl : NetLogic) (i : ServiceId) : NetLogic :=
  { nl with
    servicePool := Function.update nl.servicePool (serviceIdGame i)
      ⟨(serviceIdGame i).val, nl.route.gamelogSocket i, .gameLogic⟩ }

/-- A descriptor is watched from now on. -/
def watch (nl : NetLogic) (fd : ℤ) : NetLogic := { nl with watched := nl.watched ++ [fd] }

/-- The loop over the game services after the last connection: `-1` where `epoll_add` fails. -/
def addServices (ep : Epoll) (nl : NetLogic) : List ServiceId → NetLogic × ℤ
  | [] => (nl, 0)
  | i :: is =>
    let fd := nl.route.gamelogSocket i
    if ep.takes nl.watched fd then addServices ep ((nl.setService i).watch fd) is
    else (nl.setService i, -1)

end NetLogic

/-- `net_logic_creat`; it sets neither `gamelog_socket` nor `game_service_id`. -/
def netLogicCreat (gamelogSocket : ServiceId → ℤ) (gameServiceId : ℤ) : NetLogic where
  route := routerCreat gamelogSocket gameServiceId
  servicePool _ := ⟨0, 0, .unset⟩
  watched := []

/-- `connect_netio_service` once `connect` has returned for the socket `sockfd`. -/
def connectNetioService (ep : Epoll) (nl : NetLogic) (sockfd : ℤ) : NetLogic × ℤ :=
  let nl' := { nl with servicePool := Function.update nl.servicePool 0 ⟨0, sockfd, .netIo⟩ }
  if ep.takes nl.watched sockfd then (nl'.watch sockfd, 0) else (nl', -1)

/-- The loop of `accept_gamelog_service_connect`, from a value of `accept_num`. An outcome `none`
is an `accept` that fails. The outcomes that are left over come last in the result. -/
def acceptLoop (ep : Epoll) (nl : NetLogic) (acceptNum : ℕ) :
    List (Option Accepted) → Except Fault (NetLogic × ℤ × List (Option Accepted))
  | [] => .error .blocked
  | none :: rest => .ok (nl, -1, rest)
  | some c :: rest =>
    let acceptNum' := if c.service.isSome then acceptNum + 1 else acceptNum
    if acceptNum' = gameLogicServiceNum then
      let (nl', ret) := (nl.store c).addServices ep (List.finRange gameLogicServiceNum)
      .ok (nl', ret, rest)
    else acceptLoop ep (nl.store c) acceptNum' rest

/-- `accept_gamelog_service_connect`. -/
def acceptGamelogServiceConnect (ep : Epoll) (nl : NetLogic)
    (conns : List (Option Accepted)) : Except Fault (NetLogic × ℤ × List (Option Accepted)) :=
  acceptLoop ep nl 0 conns

/-- The services of the connections that count, in the order of their connections. -/
def servicesOf (conns : List Accepted) : List ServiceId := conns.filterMap Accepted.service

@[simp] theorem servicesOf_nil : servicesOf [] = [] := rfl

theorem servicesOf_cons (c : Accepted) (conns : List Accepted) :
    servicesOf (c :: conns) = c.service.toList ++ servicesOf conns := by
  rw [servicesOf, List.filterMap_cons, servicesOf]
  cases c.service <;> rfl

theorem servicesOf_append (conns conns' : List Accepted) :
    servicesOf (conns ++ conns') = servicesOf conns ++ servicesOf conns' :=
  List.filterMap_append

theorem mem_servicesOf {g : ServiceId} {conns : List Accepted} :
    g ∈ servicesOf conns ↔ ∃ c ∈ conns, c.service = some g := List.mem_filterMap

/-! ### What is stored -/

namespace NetLogic

theorem store_gamelogSocket (nl : NetLogic) (c : Accepted) (g : ServiceId) :
    (nl.store c).route.gamelogSocket g =
      if c.service = some g then c.socket else nl.route.gamelogSocket g := by
  unfold store
  cases hc : c.service with
  | none => simp
  | some g' =>
    rcases eq_or_ne g g' with rfl | hne
    · simp
    · simp [hne, Ne.symm hne]

/-- A service from whose port a connection has come has the socket of such a connection. -/
theorem exists_socket_of_mem {conns : List Accepted} {nl : NetLogic} {g : ServiceId}
    (h : g ∈ servicesOf conns) : ∃ c ∈ conns, c.service = some g ∧
      (conns.foldl store nl).route.gamelogSocket g = c.socket := by
  induction conns using List.reverseRecOn with
  | nil => exact absurd h (List.not_mem_nil)
  | append_singleton conns c ih =>
    rw [List.foldl_append, List.foldl_cons, List.foldl_nil, store_gamelogSocket]
    by_cases hc : c.service = some g
    · exact ⟨c, List.mem_append_right _ (List.mem_singleton_self c), hc, if_pos hc⟩
    · have hold : g ∈ servicesOf conns := by
        obtain ⟨d, hd, hdg⟩ := mem_servicesOf.mp h
        rcases List.mem_append.mp hd with hd | hd
        · exact mem_servicesOf.mpr ⟨d, hd, hdg⟩
        · exact absurd (List.mem_singleton.mp hd ▸ hdg) hc
      obtain ⟨d, hd, hdg, hsocket⟩ := ih hold
      exact ⟨d, List.mem_append_left _ hd, hdg, (if_neg hc).trans hsocket⟩

/-- The sockets are not changed when the services are added. -/
theorem addServices_route (ep : Epoll) (nl : NetLogic) (is : List ServiceId) :
    (nl.addServices ep is).1.route = nl.route := by
  induction is generalizing nl with
  | nil => rfl
  | cons i is ih =>
    rw [addServices]
    split
    · exact ih ((nl.setService i).watch (nl.route.gamelogSocket i))
    · rfl

theorem addServices_of_notMem {ep : Epoll} {nl : NetLogic} {is : List ServiceId}
    {g : ServiceId} (h : g ∉ is) :
    (nl.addServices ep is).1.servicePool (serviceIdGame g) =
      nl.servicePool (serviceIdGame g) := by
  induction is generalizing nl with
  | nil => rfl
  | cons i is ih =>
    obtain ⟨hne, hmem⟩ := not_or.mp (mt List.mem_cons.mpr h)
    have hset : (nl.setService i).servicePool (serviceIdGame g) =
        nl.servicePool (serviceIdGame g) :=
      Function.update_of_ne (serviceIdGame_injective.ne hne) _ _
    rw [addServices]
    split
    · exact (ih hmem).trans hset
    · exact hset

/-- When all are added, the entry of each service holds its socket. -/
theorem addServices_of_mem {ep : Epoll} {nl : NetLogic} {is : List ServiceId}
    (hret : (nl.addServices ep is).2 = 0) {g : ServiceId} (h : g ∈ is) :
    (nl.addServices ep is).1.servicePool (serviceIdGame g) =
      ⟨(serviceIdGame g).val, nl.route.gamelogSocket g, .gameLogic⟩ := by
  induction is generalizing nl with
  | nil => exact absurd h (List.not_mem_nil)
  | cons i is ih =>
    rw [addServices] at hret ⊢
    by_cases hadd : ep.takes nl.watched (nl.route.gamelogSocket i)
    · rw [if_pos hadd] at hret ⊢
      by_cases hmem : g ∈ is
      · exact ih hret hmem
      · have hg : g = i := (List.mem_cons.mp h).resolve_right hmem
        rw [addServices_of_notMem hmem, hg]
        exact Function.update_self _ _ _
    · rw [if_neg hadd] at hret
      exact absurd hret (Int.negSucc_ne_zero 0)

/-- All that are added are descriptors that can be open, each of them once. -/
theorem addServices_sockets {ep : Epoll} {nl : NetLogic} {is : List ServiceId}
    (hret : (nl.addServices ep is).2 = 0) :
    (is.map nl.route.gamelogSocket).Nodup ∧
      ∀ i ∈ is, 0 ≤ nl.route.gamelogSocket i ∧ nl.route.gamelogSocket i ∉ nl.watched := by
  induction is generalizing nl with
  | nil => exact ⟨List.nodup_nil, fun i hi => absurd hi List.not_mem_nil⟩
  | cons i is ih =>
    rw [addServices] at hret
    by_cases hadd : ep.takes nl.watched (nl.route.gamelogSocket i)
    · rw [if_pos hadd] at hret
      obtain ⟨hnodup, hlater⟩ := ih hret
      have hpos : 0 ≤ nl.route.gamelogSocket i := by
        by_contra hneg
        exact Bool.false_ne_true ((ep.negative _ _ (not_le.mp hneg)).symm.trans hadd)
      have hnew : nl.route.gamelogSocket i ∉ nl.watched := fun hmem =>
        Bool.false_ne_true ((ep.twice _ _ hmem).symm.trans hadd)
      refine ⟨List.nodup_cons.mpr ⟨fun hmem => ?_, hnodup⟩,
        List.forall_mem_cons.mpr ⟨⟨hpos, hnew⟩, fun j hj => ?_⟩⟩
      · obtain ⟨j, hj, he⟩ := List.mem_map.mp hmem
        refine (hlater j hj).2 (List.mem_append_right _ (List.mem_singleton.mpr ?_))
        exact he
      · exact ⟨(hlater j hj).1, fun hmem => (hlater j hj).2 (List.mem_append_left _ hmem)⟩
    · rw [if_neg hadd] at hret
      exact absurd hret (Int.negSucc_ne_zero 0)

end NetLogic

/-! ### The accepted connections -/

theorem acceptLoop_eq_ok {ep : Epoll} {nl nl' : NetLogic} {acceptNum : ℕ}
    {conns rest : List (Option Accepted)} (hlt : acceptNum < gameLogicServiceNum)
    (h : acceptLoop ep nl acceptNum conns = .ok (nl', 0, rest)) :
    ∃ seen, conns = seen.map some ++ rest ∧
      acceptNum + (servicesOf seen).length = gameLogicServiceNum ∧
      (seen.foldl NetLogic.store nl).addServices ep (List.finRange gameLogicServiceNum) =
        (nl', 0) := by
  induction conns generalizing nl acceptNum with
  | nil => exact absurd h (by simp [acceptLoop])
  | cons conn conns ih =>
    cases conn with
    | none => exact absurd h (by simp [acceptLoop])
    | some c =>
      have hcount : (if c.service.isSome then acceptNum + 1 else acceptNum) =
          acceptNum + c.service.toList.length := by cases c.service <;> rfl
      have hle : acceptNum + c.service.toList.length ≤ gameLogicServiceNum := by
        cases c.service with
        | none => exact hlt.le
        | some g => exact hlt
      simp only [acceptLoop, hcount] at h
      split_ifs at h with hlast
      · simp only [Except.ok.injEq, Prod.mk.injEq] at h
        obtain ⟨hnl, hret, rfl⟩ := h
        refine ⟨[c], rfl, ?_, Prod.ext hnl hret⟩
        rw [servicesOf_cons, servicesOf_nil, List.append_nil, hlast]
      · obtain ⟨seen, rfl, hlen, hadd⟩ := ih (lt_of_le_of_ne hle hlast) h
        refine ⟨c :: seen, rfl, ?_, hadd⟩
        rw [servicesOf_cons, List.length_append, ← Nat.add_assoc, hlen]

/-- A call that returns 0 has accepted connections of which as many count as there are services,
stored each of them, and added the sockets that are stored at the end. -/
theorem acceptGamelogServiceConnect_eq_ok {ep : Epoll} {nl nl' : NetLogic}
    {conns rest : List (Option Accepted)}
    (h : acceptGamelogServiceConnect ep nl conns = .ok (nl', 0, rest)) :
    ∃ seen, conns = seen.map some ++ rest ∧ (servicesOf seen).length = gameLogicServiceNum ∧
      nl'.route = (seen.foldl NetLogic.store nl).route ∧
      ∀ g, nl'.servicePool (serviceIdGame g) =
        ⟨(serviceIdGame g).val, nl'.route.gamelogSocket g, .gameLogic⟩ := by
  obtain ⟨seen, hconns, hlen, hadd⟩ := acceptLoop_eq_ok (Nat.succ_pos 3) h
  have hroute := NetLogic.addServices_route ep (seen.foldl NetLogic.store nl)
    (List.finRange gameLogicServiceNum)
  refine ⟨seen, hconns, (Nat.zero_add _).symm.trans hlen, ?_, fun g => ?_⟩
  · rw [← hroute, hadd]
  · have hentry := NetLogic.addServices_of_mem (congrArg Prod.snd hadd) (List.mem_finRange g)
    rw [← hroute, hadd] at hentry
    exact hentry

/-- After a call that returns 0 the four entries, set or not, name four descriptors that `epoll_ctl`
has taken. -/
theorem gamelogSocket_injective {ep : Epoll} {nl nl' : NetLogic}
    {conns rest : List (Option Accepted)}
    (h : acceptGamelogServiceConnect ep nl conns = .ok (nl', 0, rest)) :
    Function.Injective nl'.route.gamelogSocket ∧ ∀ g, 0 ≤ nl'.route.gamelogSocket g := by
  obtain ⟨seen, -, -, hadd⟩ := acceptLoop_eq_ok (Nat.succ_pos 3) h
  have hroute := NetLogic.addServices_route ep (seen.foldl NetLogic.store nl)
    (List.finRange gameLogicServiceNum)
  rw [hadd] at hroute
  obtain ⟨hnodup, hpos⟩ := NetLogic.addServices_sockets (congrArg Prod.snd hadd)
  rw [hroute]
  refine ⟨fun g g' he => ?_, fun g => (hpos g (List.mem_finRange g)).1⟩
  exact List.inj_on_of_nodup_map hnodup (List.mem_finRange g) (List.mem_finRange g') he

/-! ### Every service -/

/-- Each entry of `gamelog_socket` holds a socket accepted from the port of its service, and its
entry of `service_pool` holds this socket and its id. -/
def EveryServiceConnected (seen : List Accepted) (nl : NetLogic) : Prop :=
  ∀ g, (∃ c ∈ seen, c.service = some g ∧ nl.route.gamelogSocket g = c.socket) ∧
    nl.servicePool (serviceIdGame g) =
      ⟨(serviceIdGame g).val, nl.route.gamelogSocket g, .gameLogic⟩

/-- A list with as many entries as the type has elements repeats one or misses none. -/
theorem nodup_iff_forall_mem {α : Type*} [Fintype α] [DecidableEq α] {l : List α}
    (h : l.length = Fintype.card α) : l.Nodup ↔ ∀ a, a ∈ l := by
  constructor
  · intro hl a
    have hcard : l.toFinset.card = Fintype.card α := (List.toFinset_card_of_nodup hl).trans h
    have huniv : l.toFinset = Finset.univ := (Finset.card_eq_iff_eq_univ _).mp hcard
    exact List.mem_toFinset.mp (huniv ▸ Finset.mem_univ a)
  · intro hmem
    have huniv : l.toFinset = Finset.univ :=
      Finset.eq_univ_iff_forall.mpr fun a => List.mem_toFinset.mpr (hmem a)
    have hcard : l.toFinset.card = l.length := (congrArg Finset.card huniv).trans h.symm
    exact Multiset.coe_nodup.mp (Multiset.toFinset_card_eq_card_iff_nodup.mp hcard)

theorem everyServiceConnected_iff_forall_mem {nl nl' : NetLogic} {seen : List Accepted}
    (hroute : nl'.route = (seen.foldl NetLogic.store nl).route)
    (hpool : ∀ g, nl'.servicePool (serviceIdGame g) =
      ⟨(serviceIdGame g).val, nl'.route.gamelogSocket g, .gameLogic⟩) :
    EveryServiceConnected seen nl' ↔ ∀ g, g ∈ servicesOf seen := by
  refine forall_congr' fun g => ⟨fun ⟨⟨c, hc, hg, _⟩, _⟩ => ?_, fun h => ⟨?_, hpool g⟩⟩
  · exact mem_servicesOf.mpr ⟨c, hc, hg⟩
  · rw [hroute]
    exact NetLogic.exists_socket_of_mem h

theorem reduceOption_map_some {α : Type*} (l : List α) : (l.map some).reduceOption = l := by
  induction l with
  | nil => rfl
  | cons a l ih => rw [List.map_cons, List.reduceOption_cons_of_some, ih]

/-- A call that returns 0 has connected every service if and only if the first four connections
from ports of services come from four services. -/
theorem every_service_connected_iff {ep : Epoll} {nl nl' : NetLogic}
    {conns rest : List (Option Accepted)}
    (h : acceptGamelogServiceConnect ep nl conns = .ok (nl', 0, rest)) :
    (∃ seen, conns = seen.map some ++ rest ∧ EveryServiceConnected seen nl') ↔
      ((servicesOf conns.reduceOption).take gameLogicServiceNum).Nodup := by
  obtain ⟨seen, rfl, hlen, hroute, hpool⟩ := acceptGamelogServiceConnect_eq_ok h
  have hunique : ∀ seen', seen.map some ++ rest = seen'.map some ++ rest ↔ seen = seen' :=
    fun seen' => List.append_left_inj rest |>.trans
      (List.map_inj_right fun _ _ hc => Option.some.inj hc)
  have hreduce : (seen.map some ++ rest).reduceOption = seen ++ rest.reduceOption := by
    rw [List.reduceOption_append, reduceOption_map_some]
  have htake : (servicesOf (seen.map some ++ rest).reduceOption).take gameLogicServiceNum =
      servicesOf seen := by
    rw [hreduce, servicesOf_append, List.take_left' hlen]
  have hcard : (servicesOf seen).length = Fintype.card ServiceId :=
    hlen.trans (Fintype.card_fin gameLogicServiceNum).symm
  simp only [hunique, exists_eq_left']
  rw [htake, nodup_iff_forall_mem hcard]
  exact everyServiceConnected_iff_forall_mem hroute hpool

/-! ### The wake-ups of the services -/

/-- The wake-ups among these outputs go to sockets accepted from the ports of services. -/
def WakesServices (seen : List Accepted) (out : List NetOut) : Prop :=
  ∀ socket, .wakeGame socket ∈ out → ∃ c ∈ seen, c.service.isSome ∧ socket = c.socket

theorem EveryServiceConnected.wakesServices {seen : List Accepted} {nl : NetLogic} {r : Router}
    (h : EveryServiceConnected seen nl) (hsocket : r.gamelogSocket = nl.route.gamelogSocket)
    (g : ServiceId) (msg : GameMsg) : WakesServices seen (r.sendsTo g msg) := by
  intro socket hmem
  obtain ⟨c, hc, hg, heq⟩ := (h g).1
  have hwake : socket = r.gamelogSocket g := by simpa [Router.sendsTo] using hmem
  exact ⟨c, hc, by rw [hg]; rfl, by rw [hwake, hsocket, heq]⟩

/-- One step keeps the sockets, and wakes services only. -/
theorem EveryServiceConnected.step {P : Protobuf} {seen : List Accepted} {nl : NetLogic}
    {r r' : Router} {msg : IoMsg} {out : List NetOut} (h : EveryServiceConnected seen nl)
    (hsocket : r.gamelogSocket = nl.route.gamelogSocket)
    (hstep : disposeNetioServiceQue P r msg = .ok (r', out)) :
    r'.gamelogSocket = nl.route.gamelogSocket ∧ WakesServices seen out := by
  cases disposeNetioServiceQue_step hstep with
  | routed uid g => exact ⟨hsocket, h.wakesServices hsocket g _⟩
  | refused uid => exact ⟨hsocket, fun socket hmem => by simp [reportServiceFull] at hmem⟩
  | forwarded uid len data req g => exact ⟨hsocket, h.wakesServices hsocket g _⟩
  | dropped => exact ⟨hsocket, nofun⟩
  | closed uid g => exact ⟨hsocket, h.wakesServices hsocket g _⟩
  | closedUnrouted => exact ⟨hsocket, nofun⟩

/-- After every service has connected, net logic wakes no descriptor but theirs. -/
theorem wakeups_reach_services {P : Protobuf} {seen : List Accepted} {nl : NetLogic}
    {ok : Router → IoMsg → Prop} {is : List IoMsg} {os : List NetOut} {r : Router}
    (h : EveryServiceConnected seen nl) (hexec : (netMachine P).Exec ok nl.route is os r) :
    WakesServices seen os := by
  refine (hexec.invariant_outputs
    (P := fun os r => r.gamelogSocket = nl.route.gamelogSocket ∧ WakesServices seen os)
    ⟨rfl, nofun⟩ fun os r msg r' o ih _ hstep => ?_).2
  obtain ⟨hsocket, hwakes⟩ := h.step ih.1 hstep
  refine ⟨hsocket, fun socket hmem => ?_⟩
  rcases List.mem_append.mp hmem with hmem | hmem
  · exact ih.2 socket hmem
  · exact hwakes socket hmem

/-! ### Two runs -/

/-- Net logic is connected to net IO over the descriptor 9. -/
def NetLogic.start (gamelogSocket : ServiceId → ℤ) : NetLogic :=
  (connectNetioService (.below 20) (netLogicCreat gamelogSocket 0) 9).1

/-- The four services connect in another order than that of their ports, and one connection comes
from elsewhere. -/
theorem every_service_connected_of_four :
    ∃ nl', acceptGamelogServiceConnect (.below 20) (.start fun _ => -1)
        [some ⟨10, 8005⟩, some ⟨11, 9000⟩, some ⟨12, 8003⟩, some ⟨13, 8006⟩, some ⟨14, 8004⟩] =
          .ok (nl', 0, []) ∧
      ∃ seen, [some ⟨10, 8005⟩, some ⟨11, 9000⟩, some ⟨12, 8003⟩, some ⟨13, 8006⟩,
        some ⟨14, 8004⟩] = seen.map some ++ [] ∧ EveryServiceConnected seen nl' := by
  obtain ⟨nl', h⟩ : ∃ nl', acceptGamelogServiceConnect (.below 20) (.start fun _ => -1)
      [some ⟨10, 8005⟩, some ⟨11, 9000⟩, some ⟨12, 8003⟩, some ⟨13, 8006⟩, some ⟨14, 8004⟩] =
        .ok (nl', 0, []) := ⟨_, rfl⟩
  exact ⟨nl', h, (every_service_connected_iff h).mpr (by decide)⟩

/-- The first service connects twice before the other services, and `malloc` has left zeros: the
call returns 0, and the descriptor 0 stands for the last service. -/
theorem repeated_port_ends_early :
    (connectNetioService (.below 20) (netLogicCreat (fun _ => 0) 0) 9).2 = 0 ∧
    ∃ nl', acceptGamelogServiceConnect (.below 20) (.start fun _ => 0)
        [some ⟨10, 8003⟩, some ⟨11, 8003⟩, some ⟨12, 8004⟩, some ⟨13, 8005⟩] =
          .ok (nl', 0, []) ∧
      nl'.route.gamelogSocket 3 = 0 ∧ nl'.servicePool 7 = ⟨7, 0, .gameLogic⟩ ∧
      ¬∃ seen, [some ⟨10, 8003⟩, some ⟨11, 8003⟩, some ⟨12, 8004⟩, some ⟨13, 8005⟩] =
        seen.map some ++ [] ∧ EveryServiceConnected seen nl' := by
  refine ⟨rfl, _, rfl, rfl, rfl, fun ⟨seen, hseen, h⟩ => ?_⟩
  obtain ⟨c, hc, hg, _⟩ := (h 3).1
  have hmem : some c ∈ [some ⟨10, 8003⟩, some ⟨11, 8003⟩, some ⟨12, 8004⟩, some ⟨13, 8005⟩] := by
    rw [hseen, List.append_nil]
    exact List.mem_map_of_mem hc
  revert hg
  fin_cases hmem <;> decide

end GameServer
