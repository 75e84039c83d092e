import GameServer.Game.Tables
import GameServer.Library.Session
import GameServer.NetIo.Reports
import GameServer.Server.Services

/-!
# The entry table that the game services share

An entry of `uid_2_playid` does not say which game service wrote it. `Owned` keeps that beside the
services: the owner of an entry in use is the service whose handling of a `TYPE_SUCCESS` put it in
use. Net logic may give two successive connections with the same id to different services. Their
messages then wait in two queues, and the services stay apart as long as the messages of one uid
are handled in the order in which they were pushed: the waiting messages of a uid, read in that
order, are the rest of the session that is being handled and the sessions after it.

## Main definitions

* `Owned`, `ownedMachine` : the services with the owners of the entries.
* `nextTurn` : the sessions of a uid as the game services receive them.
* `HandledInOrder` : the message handled is the first one waiting for its uid.
* `OwnedInv` : the owner of an entry is the service whose session of the uid is being handled.

## Main results

* `OwnedInv.receive`, `OwnedInv.handle` : the invariant is kept.
* `entries_independent` : no service finds or clears a registration of another.
-/

namespace GameServer

/-! ### Owners -/

/-- The services with the owners of the entries in use. The owners are not part of the program. -/
structure Owned where
  services : Services
  owner : Uid → Option ServiceId

/-- The owners after a step of `g` from the entries `before` to the entries `after`: an entry that
has come into use belongs to `g`. -/
def ownerAfter (g : ServiceId) (before after : Uid → PlayerId) (owner : Uid → Option ServiceId) :
    Uid → Option ServiceId := fun u =>
  if (after u).state = .typeUsing then
    if (before u).state = .typeUsing then owner u else some g
  else none

/-- The services with owners as a machine; the broadcasts and the nodes for net IO leave it. -/
def ownedMachine (P : Protobuf) : Machine Owned ServicesIn (NetIoNode ⊕ Broadcast) Fault where
  step s i :=
    match i with
    | .netIo msg => do
      let (sv, nodes) ← s.services.receive P msg
      .ok (⟨sv, s.owner⟩, nodes.map .inl)
    | .game g => do
      let (sv, out) ← s.services.handle g
      .ok (⟨sv, ownerAfter g s.services.uid2Playid sv.uid2Playid s.owner⟩, out.map .inr)

/-- No entry is in use when the services start. -/
def ownedStart (heap : ServiceId → MapId → SlotId → Player) (gamelogSocket : ServiceId → ℤ)
    (gameServiceId : ℤ) : Owned :=
  ⟨Services.start heap gamelogSocket gameServiceId, fun _ => none⟩

/-- Entries in use, and only they, have an owner. -/
theorem ownerAfter_eq_none {g : ServiceId} {before after : Uid → PlayerId}
    {owner : Uid → Option ServiceId}
    (h : ∀ u, owner u = none ↔ (before u).state = .typeInvalid) (u : Uid) :
    ownerAfter g before after owner u = none ↔ (after u).state = .typeInvalid := by
  unfold ownerAfter
  cases hafter : (after u).state with
  | typeInvalid => exact iff_of_true rfl rfl
  | typeUsing =>
    refine iff_of_false ?_ nofun
    cases hbefore : (before u).state with
    | typeInvalid => nofun
    | typeUsing =>
      intro hnone
      have hinv := (h u).mp hnone
      rw [hbefore] at hinv
      cases hinv

/-- An entry that was free has no owner but `g`. -/
theorem ownerAfter_of_free {g : ServiceId} {before after : Uid → PlayerId}
    {owner : Uid → Option ServiceId} {u : Uid} (h : (before u).state = .typeInvalid) :
    ownerAfter g before after owner u = none ∨ ownerAfter g before after owner u = some g := by
  simp only [ownerAfter, h, reduceCtorEq, if_false]
  split_ifs with hafter
  · exact Or.inr rfl
  · exact Or.inl rfl

/-! ### Sessions across the services -/

/-- The uid of a waiting message. -/
def waitingUid (p : ServiceId × GameMsg) : Uid := p.2.uid

/-- The turn of a uid passes from service to service: it is taken by a `TYPE_SUCCESS`, kept by a
request and given back by a `TYPE_CLOSE`. -/
def nextTurn : Option ServiceId → ServiceId × GameMsg → Option (Option ServiceId)
  | none, (g, .success _) => some (some g)
  | some g', (g, .data _ _) => if g' = g then some (some g) else none
  | some g', (g, .close _) => if g' = g then some none else none
  | _, _ => none

theorem nextTurn_success {cur cur' : Option ServiceId} {g : ServiceId} {u : Uid}
    (h : nextTurn cur (g, .success u) = some cur') : cur = none ∧ cur' = some g := by
  cases cur with
  | none => exact ⟨rfl, (Option.some.inj h).symm⟩
  | some g' => cases h

theorem nextTurn_data {cur cur' : Option ServiceId} {g : ServiceId} {u : Uid} {req : Request}
    (h : nextTurn cur (g, .data u req) = some cur') : cur = some g ∧ cur' = some g := by
  cases cur with
  | none => cases h
  | some g' =>
    obtain ⟨rfl, he⟩ := Option.ite_none_right_eq_some.mp h
    exact ⟨rfl, (Option.some.inj he).symm⟩

theorem nextTurn_close {cur cur' : Option ServiceId} {g : ServiceId} {u : Uid}
    (h : nextTurn cur (g, .close u) = some cur') : cur = some g ∧ cur' = none := by
  cases cur with
  | none => cases h
  | some g' =>
    obtain ⟨rfl, he⟩ := Option.ite_none_right_eq_some.mp h
    exact ⟨rfl, (Option.some.inj he).symm⟩

/-- The message that a service handles next is the first one waiting for its uid in any queue. -/
def HandledInOrder (s : Owned) : ServicesIn → Prop
  | .netIo _ => True
  | .game g => ∀ p ∈ (MergedQueues.part Prod.fst g s.services.waiting).head?,
      (MergedQueues.part waitingUid (waitingUid p) s.services.waiting).head? = some p

instance (s : Owned) (i : ServicesIn) : Decidable (HandledInOrder s i) :=
  match i with
  | .netIo _ => .isTrue trivial
  | .game g => inferInstanceAs (Decidable
      (∀ p ∈ (MergedQueues.part Prod.fst g s.services.waiting).head?,
        (MergedQueues.part waitingUid (waitingUid p) s.services.waiting).head? = some p))

/-- The uid is served by the service, or by none. -/
def Router.Serves (r : Router) (u : Uid) : Option ServiceId → Prop
  | none => r.Unrouted u
  | some g => r.RoutesTo u g

namespace Router.Serves

variable {r r' : Router} {u : Uid}

/-- A uid is served by one service at most. -/
theorem unique {route route' : Option ServiceId} (h : r.Serves u route)
    (h' : r.Serves u route') : route = route' := by
  cases route with
  | none =>
    cases route' with
    | none => rfl
    | some g' => exact absurd h (Router.RoutesTo.not_unrouted h')
  | some g =>
    cases route' with
    | none => exact absurd h' (Router.RoutesTo.not_unrouted h)
    | some g' =>
      have hval : (g.val : ℤ) = g'.val := h.symm.trans h'
      exact congrArg some (Fin.ext (by omega))

/-- Who serves a uid is a matter of its entry. -/
theorem of_eq {route : Option ServiceId} (h : r.Serves u route)
    (he : r'.sockId2gameLogic u = r.sockId2gameLogic u) : r'.Serves u route := by
  cases route with
  | none => exact he.trans h
  | some g => exact (congrArg Int8.toInt he).trans h

end Router.Serves

/-- The waiting messages of each uid continue the turn of the service that owns its entry, up to
the service that net logic has for it. -/
structure OwnedInv (s : Owned) : Prop where
  que : s.services.router.que2Gamelogic = .netlogic2Game
  owner_none : ∀ u, s.owner u = none ↔ (s.services.uid2Playid u).state = .typeInvalid
  turn : ∀ u, ∃ cur route,
    sessionAfter waitingUid nextTurn cur u s.services.waiting = some route ∧
    s.services.router.Serves u route ∧ (s.owner u = none ∨ s.owner u = cur)

namespace OwnedInv

variable {P : Protobuf} {s : Owned}

theorem init (heap : ServiceId → MapId → SlotId → Player) (gamelogSocket : ServiceId → ℤ)
    (gameServiceId : ℤ) : OwnedInv (ownedStart heap gamelogSocket gameServiceId) where
  que := rfl
  owner_none _ := iff_of_true rfl rfl
  turn _ := ⟨none, none, rfl, rfl, Or.inl rfl⟩

/-- A message that net logic pushes continues the turn of its uid. -/
theorem turn_push (h : OwnedInv s) {r : Router} {g : ServiceId} {msg : GameMsg}
    (route route' : Option ServiceId) (hserves : s.services.router.Serves msg.uid route)
    (hnext : nextTurn route (g, msg) = some route') (hserves' : r.Serves msg.uid route')
    (hother : ∀ u, u ≠ msg.uid → ∀ route, s.services.router.Serves u route → r.Serves u route)
    (u : Uid) : ∃ cur route,
      sessionAfter waitingUid nextTurn cur u (s.services.waiting ++ [(g, msg)]) = some route ∧
      r.Serves u route ∧ (s.owner u = none ∨ s.owner u = cur) := by
  by_cases hu : u = msg.uid
  · subst hu
    obtain ⟨cur, route₀, hturn, hserves₀, howner⟩ := h.turn msg.uid
    obtain rfl : route₀ = route := hserves₀.unique hserves
    exact ⟨cur, route', sessionAfter_append_eq_some (a := (g, msg)) hturn hnext, hserves', howner⟩
  · obtain ⟨cur, route₀, hturn, hserves₀, howner⟩ := h.turn u
    refine ⟨cur, route₀, ?_, hother u hu _ hserves₀, howner⟩
    rw [sessionAfter_append_of_ne (a := (g, msg)) hu]
    exact hturn

/-- **Step of net logic.** -/
theorem receive (h : OwnedInv s) {msg : IoMsg} {sv : Services} {nodes : List NetIoNode}
    (hstep : s.services.receive P msg = .ok (sv, nodes)) : OwnedInv ⟨sv, s.owner⟩ := by
  obtain ⟨r, out, hroute, -, rfl⟩ := Services.receive_eq_ok hstep
  refine ⟨hroute.arrays_eq.1.trans h.que, h.owner_none, ?_⟩
  cases hroute with
  | routed uid g hnew =>
    rw [Router.sendsTo_toGame h.que]
    refine h.turn_push none (some g) hnew rfl ?_ fun u hu route hs => ?_
    · exact Router.routesTo_assign ..
    · exact hs.of_eq (Function.update_of_ne hu ..)
  | forwarded uid len data req g _ hserved =>
    rw [Router.sendsTo_toGame h.que]
    refine h.turn_push (some g) (some g) hserved ?_ hserved fun u _ route hs => hs
    exact if_pos rfl
  | closed uid g hserved =>
    rw [Router.sendsTo_toGame h.que]
    refine h.turn_push (some g) none hserved ?_ ?_ fun u hu route hs => ?_
    · exact if_pos rfl
    · exact Function.update_self ..
    · exact hs.of_eq (Function.update_of_ne hu ..)
  | refused | dropped | closedUnrouted =>
    simpa only [reportServiceFull_toGame, List.filterMap_nil, List.append_nil] using h.turn

/-- The message that a service handles in order is the next of the turn of its uid. -/
theorem turn_pop (h : OwnedInv s) {g : ServiceId} {msg : GameMsg}
    {rest : List (ServiceId × GameMsg)} (hok : HandledInOrder s (.game g))
    (hpop : MergedQueues.pop Prod.fst g s.services.waiting = some ((g, msg), rest)) :
    ∃ cur cur' route, nextTurn cur (g, msg) = some cur' ∧
      sessionAfter waitingUid nextTurn cur' msg.uid rest = some route ∧
      s.services.router.Serves msg.uid route ∧
      (s.owner msg.uid = none ∨ s.owner msg.uid = cur) := by
  obtain ⟨cur, route, hturn, hserves, howner⟩ := h.turn msg.uid
  have hhead := hok (g, msg) (by rw [MergedQueues.part_of_pop hpop]; rfl)
  have hpart := MergedQueues.part_of_pop_of_head hpop hhead
  have hcons : sessionAfter waitingUid nextTurn cur msg.uid s.services.waiting =
      (nextTurn cur (g, msg)).bind fun c => sessionAfter waitingUid nextTurn c msg.uid rest :=
    sessionAfter_of_filter_eq_cons hpart
  rw [hcons, Option.bind_eq_some_iff] at hturn
  obtain ⟨cur', hnext, hturn⟩ := hturn
  exact ⟨cur, cur', route, hnext, hturn, hserves, howner⟩

/-- A message handled by `g` in order comes from a session that `g` serves: at its start the uid
has no owner, later it has none but `g`. -/
theorem owner_of_handled (h : OwnedInv s) {g : ServiceId} {msg : GameMsg}
    {rest : List (ServiceId × GameMsg)} (hok : HandledInOrder s (.game g))
    (hpop : MergedQueues.pop Prod.fst g s.services.waiting = some ((g, msg), rest)) :
    (∀ u, msg = .success u → s.owner u = none) ∧
      (s.owner msg.uid = none ∨ s.owner msg.uid = some g) := by
  obtain ⟨cur, cur', route, hnext, -, -, howner⟩ := h.turn_pop hok hpop
  cases msg with
  | success u =>
    obtain ⟨rfl, -⟩ := nextTurn_success hnext
    have hnone := howner.elim id id
    exact ⟨fun v hv => GameMsg.success.inj hv ▸ hnone, Or.inl hnone⟩
  | data u req =>
    obtain ⟨rfl, -⟩ := nextTurn_data hnext
    exact ⟨nofun, howner⟩
  | close u =>
    obtain ⟨rfl, -⟩ := nextTurn_close hnext
    exact ⟨nofun, howner⟩

/-- The owner of an entry that a step leaves alone. -/
theorem ownerAfter_of_eq (h : OwnedInv s) {g : ServiceId} {after : Uid → PlayerId} {u : Uid}
    (he : after u = s.services.uid2Playid u) :
    ownerAfter g s.services.uid2Playid after s.owner u = s.owner u := by
  unfold ownerAfter
  rw [he]
  split_ifs with hused
  · rfl
  · refine ((h.owner_none u).mpr ?_).symm
    cases hstate : (s.services.uid2Playid u).state with
    | typeInvalid => rfl
    | typeUsing => exact absurd hstate hused

/-- After the step of `g` the uid is owned by the service whose turn it is, if at all. -/
theorem owner_next (h : OwnedInv s) {g : ServiceId} {msg : GameMsg} {gl : GameLogic}
    {out : List Broadcast} {cur cur' : Option ServiceId}
    (hgame : GameStep (s.services.game g) msg gl out) (hnext : nextTurn cur (g, msg) = some cur')
    (howner : s.owner msg.uid = none ∨ s.owner msg.uid = cur) :
    ownerAfter g s.services.uid2Playid gl.uid2Playid s.owner msg.uid = none ∨
      ownerAfter g s.services.uid2Playid gl.uid2Playid s.owner msg.uid = cur' := by
  cases msg with
  | success u =>
    obtain ⟨rfl, rfl⟩ := nextTurn_success hnext
    exact ownerAfter_of_free ((h.owner_none u).mp (howner.elim id id))
  | data u req =>
    obtain ⟨rfl, rfl⟩ := nextTurn_data hnext
    have hsame := h.ownerAfter_of_eq (g := g) (congrFun hgame.entry_of_data u)
    exact howner.imp hsame.trans hsame.trans
  | close u =>
    obtain ⟨rfl, rfl⟩ := nextTurn_close hnext
    left
    rw [ownerAfter_eq_none h.owner_none]
    have hfree := hgame.not_registered_of_close
    unfold GameLogic.Registered at hfree
    cases hstate : (gl.uid2Playid u).state with
    | typeInvalid => exact hstate
    | typeUsing => exact absurd hstate hfree

/-- **Step of a game service.** -/
theorem handle (h : OwnedInv s) {g : ServiceId} {sv : Services} {out : List Broadcast}
    (hok : HandledInOrder s (.game g)) (hstep : s.services.handle g = .ok (sv, out)) :
    OwnedInv ⟨sv, ownerAfter g s.services.uid2Playid sv.uid2Playid s.owner⟩ := by
  rcases Services.handle_eq_ok hstep with ⟨-, rfl, -⟩ | ⟨msg, rest, gl, hpop, -, hgame, rfl⟩
  · have hsame : ownerAfter g s.services.uid2Playid s.services.uid2Playid s.owner = s.owner := by
      funext u
      exact h.ownerAfter_of_eq rfl
    rw [hsame]
    exact h
  · refine ⟨h.que, fun u => ownerAfter_eq_none h.owner_none u, fun u => ?_⟩
    by_cases hu : u = msg.uid
    · subst hu
      obtain ⟨cur, cur', route, hnext, hturn, hserves, howner⟩ := h.turn_pop hok hpop
      exact ⟨cur', route, hturn, hserves, h.owner_next hgame hnext howner⟩
    · obtain ⟨cur, route, hturn, hserves, howner⟩ := h.turn u
      refine ⟨cur, route, ?_, hserves, ?_⟩
      · rw [← hturn]
        exact sessionAfter_congr (MergedQueues.part_of_pop_of_ne hpop (Ne.symm hu))
      · have hsame := h.ownerAfter_of_eq (g := g) (hgame.entry_of_ne hu)
        exact howner.imp hsame.trans hsame.trans

/-- The invariant holds in every run that handles the messages of each uid in order. -/
theorem exec {is : List ServicesIn} {os : List (NetIoNode ⊕ Broadcast)} {s₀ : Owned}
    (h₀ : OwnedInv s₀) (hrun : (ownedMachine P).Exec HandledInOrder s₀ is os s) : OwnedInv s := by
  refine hrun.invariant h₀ ?_
  intro s i s' o hinv hok hstep
  cases i with
  | netIo msg =>
    obtain ⟨⟨sv, nodes⟩, hreceive, h⟩ := Except.bind_eq_ok_iff.mp hstep
    obtain ⟨rfl, -⟩ := Prod.mk.inj (Except.ok.inj h)
    exact hinv.receive hreceive
  | game g =>
    obtain ⟨⟨sv, out⟩, hhandle, h⟩ := Except.bind_eq_ok_iff.mp hstep
    obtain ⟨rfl, -⟩ := Prod.mk.inj (Except.ok.inj h)
    exact hinv.handle hok hhandle

end OwnedInv

/-- **The game services do not disturb each other.** After a run in which the messages of each uid
are handled in the order of their pushes, an entry has an owner exactly while it is in use, and
when the next message of a service `g` is handled in this order, a `TYPE_SUCCESS` finds the entry
of its uid free, and no entry that another service owns is changed, so that a `TYPE_CLOSE` clears
no registration of another service. -/
theorem entries_independent {P : Protobuf} {heap : ServiceId → MapId → SlotId → Player}
    {gamelogSocket : ServiceId → ℤ} {gameServiceId : ℤ} {is : List ServicesIn}
    {os : List (NetIoNode ⊕ Broadcast)} {s : Owned}
    (hrun : (ownedMachine P).Exec HandledInOrder (ownedStart heap gamelogSocket gameServiceId)
      is os s) :
    (∀ u, s.owner u = none ↔ (s.services.uid2Playid u).state = .typeInvalid) ∧
    ∀ g, HandledInOrder s (.game g) →
      (∀ u, s.services.next g = some (.success u) →
        (s.services.uid2Playid u).state = .typeInvalid) ∧
      ∀ s' o, (ownedMachine P).step s (.game g) = .ok (s', o) →
        ∀ u g', s.owner u = some g' → g' ≠ g →
          s'.services.uid2Playid u = s.services.uid2Playid u ∧ s'.owner u = some g' := by
  have hinv := (OwnedInv.init heap gamelogSocket gameServiceId).exec hrun
  refine ⟨hinv.owner_none, fun g hok => ⟨fun u hnext => ?_, fun s' o hstep u g' hg' hne => ?_⟩⟩
  · obtain ⟨⟨⟨g₀, msg⟩, rest⟩, hpop, rfl⟩ := Option.map_eq_some_iff.mp hnext
    obtain rfl : g₀ = g := (MergedQueues.pop_eq_some hpop).1
    exact (hinv.owner_none u).mp ((hinv.owner_of_handled hok hpop).1 u rfl)
  · obtain ⟨⟨sv, out⟩, hhandle, h⟩ := Except.bind_eq_ok_iff.mp hstep
    obtain ⟨rfl, -⟩ := Prod.mk.inj (Except.ok.inj h)
    have hsame : sv.uid2Playid u = s.services.uid2Playid u := by
      rcases Services.handle_eq_ok hhandle with ⟨-, rfl, -⟩ | ⟨msg, rest, gl, hpop, -, hgame, rfl⟩
      · rfl
      · refine hgame.entry_of_ne ?_
        rintro rfl
        rcases (hinv.owner_of_handled hok hpop).2 with howner | howner
        · exact nomatch hg'.symm.trans howner
        · exact hne (Option.some.inj (hg'.symm.trans howner))
    exact ⟨hsame, (hinv.ownerAfter_of_eq hsame).trans hg'⟩

/-- The client 3 comes and goes, the clients 4 to 203 fill the service 0, and the id 3 is used by a
new connection, which goes to the service 1. -/
def idMovesOn : List ServicesIn :=
  [.netIo (.success 3), .netIo (.close 3), .game 0, .game 0] ++
    (List.range 200).map (fun i => .netIo (.success (Fin.ofNat maxSocket (i + 4)))) ++
    [.game 0, .netIo (.success 3)]

/-- The service 1 registers the second connection of the id 3 beside the client 4 of the
service 0. -/
theorem entries_independent_run : ∃ s os s' o,
    (ownedMachine oneByteProtobuf).Exec HandledInOrder
      (ownedStart (fun _ => zeroHeap) (fun _ => 7) 0) idMovesOn os s ∧
    s.services.next 1 = some (.success 3) ∧ (s.services.uid2Playid 3).state = .typeInvalid ∧
    s.owner 4 = some 0 ∧
    (ownedMachine oneByteProtobuf).step s (.game 1) = .ok (s', o) ∧ s'.owner 3 = some 1 ∧
    s'.services.uid2Playid 4 = s.services.uid2Playid 4 ∧ s'.owner 4 = some 0 := by
  have hrun : ((ownedMachine oneByteProtobuf).run HandledInOrder
      (ownedStart (fun _ => zeroHeap) (fun _ => 7) 0) idMovesOn).map
      (fun p => ((p.1.services.next 1, p.1.owner 4, decide (HandledInOrder p.1 (.game 1))),
        ((ownedMachine oneByteProtobuf).step p.1 (.game 1)).map fun q => q.1.owner 3)) =
      some ((some (.success 3), some 0, true), .ok (some 1)) := by
    decide +kernel
  obtain ⟨s, os, hrun, hobs⟩ := (ownedMachine oneByteProtobuf).exec_of_run_map hrun
  obtain ⟨hobs, hstep⟩ := Prod.mk.inj hobs
  obtain ⟨hnext, hobs⟩ := Prod.mk.inj hobs
  obtain ⟨howner, hok⟩ := Prod.mk.inj hobs
  obtain ⟨⟨s', o⟩, hstep, hturn⟩ := Except.map_eq_ok_iff.mp hstep
  obtain ⟨hfree, hkeeps⟩ := (entries_independent hrun).2 1 (of_decide_eq_true hok)
  obtain ⟨hentry, howner'⟩ := hkeeps s' o hstep 4 0 howner (by decide)
  exact ⟨s, os, s', o, hrun, hnext, hfree 3 hnext, howner, hstep, hturn, hentry, howner'⟩

/-- The clients 3 to 202 connect and fill the service 0; then 3 leaves, 203 takes its place, and 3
is used by a new connection, which goes to the service 1. -/
def idUsedAgain : List IoMsg :=
  (List.range 200).map (fun i => .success (Fin.ofNat maxSocket (i + 3))) ++
    [.close 3, .success 203, .success 3]

/-- **Two services meet at one entry.** The service 0 has registered the first connection of the
id 3 and not yet handled its close when the service 1 handles the `TYPE_SUCCESS` of the second
one: it finds the entry in use by the service 0. -/
theorem entry_found_in_use : ∃ s os,
    (ownedMachine oneByteProtobuf).Exec Machine.any (ownedStart (fun _ => zeroHeap) (fun _ => 7) 0)
      (idUsedAgain.map .netIo ++ [.game 0]) os s ∧
    IsSession NetIoOut.uid Life.next .closed (idUsedAgain.map .push) ∧
    s.services.next 1 = some (.success 3) ∧ (s.services.uid2Playid 3).state = .typeUsing ∧
    s.owner 3 = some 0 := by
  have hsession : IsSession NetIoOut.uid Life.next .closed (idUsedAgain.map .push) := by
    decide +kernel
  have hrun : ((ownedMachine oneByteProtobuf).run Machine.any
      (ownedStart (fun _ => zeroHeap) (fun _ => 7) 0) (idUsedAgain.map .netIo ++ [.game 0])).map
      (fun p => (p.1.services.next 1, (p.1.services.uid2Playid 3).state, p.1.owner 3)) =
      some (some (.success 3), .typeUsing, some 0) := by
    decide +kernel
  obtain ⟨s, os, hrun, hobs⟩ := (ownedMachine oneByteProtobuf).exec_of_run_map hrun
  obtain ⟨hnext, hobs⟩ := Prod.mk.inj hobs
  obtain ⟨hstate, howner⟩ := Prod.mk.inj hobs
  exact ⟨s, os, hrun, hsession, hnext, hstate, howner⟩

end GameServer
