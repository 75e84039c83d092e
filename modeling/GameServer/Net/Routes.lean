import GameServer.Net.Service
import Mathlib.Algebra.BigOperators.Group.Finset.Piecewise
import Mathlib.Algebra.Order.BigOperators.Group.Finset
import Mathlib.Algebra.Order.Group.Defs
import Mathlib.Algebra.Order.Group.Int
import Mathlib.Data.Finset.Card
import Mathlib.Data.Fintype.Basic
import Mathlib.Tactic.FinCases

/-!
# Routes of net logic

The counter, the queue and the socket of a message are selected by the scratch field
`game_service_id`, not by the entry of its uid. `RouteStep` states what each message does in terms
of the entry: every use of the scratch field comes after a lookup or an assignment of the same uid
in the same message, so nothing that an earlier message left there is used.

## Main definitions

* `Router.RoutesTo`, `Router.routedTo` : the uids whose entry names a service.
* `RouteStep` : the steps of net logic on messages from net IO.
* `RouteInv` : entries name services, and the counters count them.
* `RoomForNew` : some service has room when a new connection is to be routed.
* `SentAsNamed` : what is sent for a message, by the service that the table names for its uid.
* `RefusesNew` : a connect is turned away, and net IO is told.

## Main results

* `disposeNetioServiceQue_step` : every message handled is a `RouteStep`.
* `route_counts` : counters, queues and sockets agree with the table in every run.
* `full_router_never_refuses` : a router without room leaves the per-service arrays.
-/

namespace GameServer

namespace Router

/-- The entry of the uid names the service. -/
def RoutesTo (r : Router) (uid : Uid) (g : ServiceId) : Prop :=
  (r.sockId2gameLogic uid).toInt = g.val

instance (r : Router) (uid : Uid) (g : ServiceId) : Decidable (r.RoutesTo uid g) :=
  inferInstanceAs (Decidable (_ = _))

/-- The uid has no service. -/
def Unrouted (r : Router) (uid : Uid) : Prop := r.sockId2gameLogic uid = playerTypeInvalid

instance (r : Router) (uid : Uid) : Decidable (r.Unrouted uid) :=
  inferInstanceAs (Decidable (_ = _))

/-- The uids of a service. -/
def routedTo (r : Router) (g : ServiceId) : Finset Uid := Finset.univ.filter (r.RoutesTo · g)

theorem mem_routedTo {r : Router} {g : ServiceId} {uid : Uid} :
    uid ∈ r.routedTo g ↔ r.RoutesTo uid g := by
  simp only [routedTo, Finset.mem_filter, Finset.mem_univ, true_and]

/-- The router after `uid` has been given to `g`. -/
def assign (r : Router) (uid : Uid) (g : ServiceId) : Router :=
  { r with
    gameServiceId := g.val
    sockId2gameLogic := Function.update r.sockId2gameLogic uid (Int8.ofInt g.val)
    onlinePlayer := Function.update r.onlinePlayer g (r.onlinePlayer g + 1) }

/-- The router after a lookup that found `g`. -/
def lookedUp (r : Router) (g : ServiceId) : Router := { r with gameServiceId := g.val }

/-- The router after `uid` has been taken from `g`. -/
def release (r : Router) (uid : Uid) (g : ServiceId) : Router :=
  { r with
    gameServiceId := g.val
    sockId2gameLogic := Function.update r.sockId2gameLogic uid playerTypeInvalid
    onlinePlayer := Function.update r.onlinePlayer g (r.onlinePlayer g - 1) }

end Router

theorem toInt_ofInt_service (g : ServiceId) : (Int8.ofInt g.val).toInt = g.val := by
  fin_cases g <;> rfl

theorem serviceIndex_val (g : ServiceId) : serviceIndex g.val = .ok g := by
  have h : (0 : ℤ) ≤ (g.val : ℤ) ∧ (g.val : ℤ).toNat < gameLogicServiceNum :=
    ⟨by omega, by simp⟩
  simp only [serviceIndex, h, and_self, dite_true, Except.ok.injEq]
  exact Fin.ext (by simp)

theorem serviceIndex_eq_ok {i : ℤ} {g : ServiceId} : serviceIndex i = .ok g ↔ i = g.val := by
  constructor
  · intro h
    unfold serviceIndex at h
    split_ifs at h with hi
    cases h
    simp only
    omega
  · rintro rfl
    exact serviceIndex_val g

theorem Router.unrouted_iff_toInt {r : Router} {uid : Uid} :
    r.Unrouted uid ↔ (r.sockId2gameLogic uid).toInt = -1 := by
  unfold Router.Unrouted
  constructor
  · intro h
    rw [h]
    rfl
  · intro h
    exact Int8.toInt_inj.mp h

theorem Router.RoutesTo.not_unrouted {r : Router} {uid : Uid} {g : ServiceId}
    (h : r.RoutesTo uid g) : ¬r.Unrouted uid := by
  rw [Router.unrouted_iff_toInt, h]
  omega

/-- After an assignment the entry names the service. -/
theorem Router.routesTo_assign (r : Router) (uid : Uid) (g : ServiceId) :
    (r.assign uid g).RoutesTo uid g := by
  simp only [Router.RoutesTo, Router.assign, Function.update_self, toInt_ofInt_service]

/-! ### The steps of net logic -/

/-- A message pushed to the queue of a service and the wake-up of that service. -/
def Router.sendsTo (r : Router) (g : ServiceId) (msg : GameMsg) : List NetOut :=
  [.pushGame (r.que2Gamelogic g) msg, .wakeGame (r.gamelogSocket g)]

/-- The steps of net logic on messages from net IO. -/
inductive RouteStep (P : Protobuf) (r : Router) : IoMsg → Router → List NetOut → Prop
  | routed (uid : Uid) (g : ServiceId) (hnew : r.Unrouted uid)
      (hroom : r.onlinePlayer g < maxGameServicePlayerNum) :
      RouteStep P r (.success uid) (r.assign uid g) (r.sendsTo g (.success uid))
  | refused (uid : Uid) (hused : ¬r.Unrouted uid) :
      RouteStep P r (.success uid) r (reportServiceFull uid)
  | forwarded (uid : Uid) (len : ℤ) (data : List UInt8) (req : Request) (g : ServiceId)
      (hreq : unpackUserData P data len = .ok req) (hroute : r.RoutesTo uid g) :
      RouteStep P r (.data uid len data) (r.lookedUp g) (r.sendsTo g (.data uid req))
  | dropped (uid : Uid) (len : ℤ) (data : List UInt8) (req : Request)
      (hreq : unpackUserData P data len = .ok req) (hnone : r.Unrouted uid) :
      RouteStep P r (.data uid len data) r []
  | closed (uid : Uid) (g : ServiceId) (hroute : r.RoutesTo uid g) :
      RouteStep P r (.close uid) (r.release uid g) (r.sendsTo g (.close uid))
  | closedUnrouted (uid : Uid) (hnone : r.Unrouted uid) : RouteStep P r (.close uid) r []

theorem sendMsg2GameLogic_of_unrouted {r : Router} {uid : Uid} (h : r.Unrouted uid)
    (msg : GameMsg) : sendMsg2GameLogic r msg uid = .ok (r, []) := by
  unfold Router.Unrouted at h
  simp [sendMsg2GameLogic, routeGetMsgQue, routeGetGamelogicId, h, bind, Except.bind]

theorem sendMsg2GameLogic_of_routesTo {r : Router} {uid : Uid} {g : ServiceId}
    (h : r.RoutesTo uid g) (msg : GameMsg) :
    sendMsg2GameLogic r msg uid = .ok (r.lookedUp g, r.sendsTo g msg) := by
  have hused : r.sockId2gameLogic uid ≠ playerTypeInvalid := h.not_unrouted
  unfold Router.RoutesTo at h
  simp [sendMsg2GameLogic, routeGetMsgQue, routeGetGamelogicId, routeGetMsgSocket, hused, h, bind,
    Except.bind, serviceIndex_val, Router.lookedUp, Router.sendsTo]

/-- A message is dropped, or goes to the service that its entry names. -/
theorem sendMsg2GameLogic_cases {r r' : Router} {msg : GameMsg} {uid : Uid} {out : List NetOut}
    (h : sendMsg2GameLogic r msg uid = .ok (r', out)) :
    (r.Unrouted uid ∧ r' = r ∧ out = []) ∨
      ∃ g, r.RoutesTo uid g ∧ r' = r.lookedUp g ∧ out = r.sendsTo g msg := by
  by_cases hnone : r.Unrouted uid
  · rw [sendMsg2GameLogic_of_unrouted hnone, Except.ok.injEq, Prod.mk.injEq] at h
    exact Or.inl ⟨hnone, h.1.symm, h.2.symm⟩
  · right
    have hused : r.sockId2gameLogic uid ≠ playerTypeInvalid := hnone
    have hserv : ∃ g, serviceIndex (r.sockId2gameLogic uid).toInt = .ok g := by
      simp only [sendMsg2GameLogic, routeGetMsgQue, routeGetGamelogicId, hused, ne_eq,
        not_false_iff, if_true, Except.bind_eq_ok_iff] at h
      obtain ⟨a, ⟨g, hg, -⟩, -⟩ := h
      exact ⟨g, hg⟩
    obtain ⟨g, hg⟩ := hserv
    have hroute : r.RoutesTo uid g := serviceIndex_eq_ok.mp hg
    rw [sendMsg2GameLogic_of_routesTo hroute, Except.ok.injEq, Prod.mk.injEq] at h
    exact ⟨g, hroute, h.1.symm, h.2.symm⟩

theorem routeSetGamelogicId_of_used {r : Router} {uid : Uid} (h : ¬r.Unrouted uid) :
    routeSetGamelogicId r uid = .ok (-1, r) := by
  unfold Router.Unrouted at h
  simp only [routeSetGamelogicId, if_neg h]

/-- A new uid is given to a service with room; without one the index is out of range. -/
theorem routeSetGamelogicId_of_unrouted {r : Router} {uid : Uid} (h : r.Unrouted uid) :
    (∃ g, r.onlinePlayer g < maxGameServicePlayerNum ∧
      routeSetGamelogicId r uid = .ok (0, r.assign uid g)) ∨
    ((∀ g, maxGameServicePlayerNum ≤ r.onlinePlayer g) ∧
      routeSetGamelogicId r uid = .error .serviceRange) := by
  unfold Router.Unrouted at h
  cases hfind : (List.finRange gameLogicServiceNum).find? fun g =>
      r.onlinePlayer g < maxGameServicePlayerNum with
  | some g =>
    left
    have hroom : r.onlinePlayer g < maxGameServicePlayerNum := by
      simpa using List.find?_some hfind
    have hid : (UInt8.ofNat g.val).toNat = g.val := by
      fin_cases g <;> rfl
    have hne : (g.val : ℤ) ≠ -1 := by omega
    refine ⟨g, hroom, ?_⟩
    simp only [routeSetGamelogicId, h, if_true, routeDistributeGamelogic, hfind, hid, ne_eq, hne,
      not_false_iff, serviceIndex_val, bind, Except.bind, Router.assign]
  | none =>
    right
    refine ⟨fun g => ?_, ?_⟩
    · have hg := List.find?_eq_none.mp hfind g (List.mem_finRange g)
      simpa using hg
    · simp only [routeSetGamelogicId, h, if_true, routeDistributeGamelogic, hfind]
      rfl

/-- **Inversion.** A message handled without a fault is a step of net logic. -/
theorem disposeNetioServiceQue_step {P : Protobuf} {r r' : Router} {msg : IoMsg}
    {out : List NetOut} (h : disposeNetioServiceQue P r msg = .ok (r', out)) :
    RouteStep P r msg r' out := by
  cases msg with
  | data uid len data =>
    simp only [disposeNetioServiceQue, Except.bind_eq_ok_iff] at h
    obtain ⟨req, hreq, hsend⟩ := h
    rcases sendMsg2GameLogic_cases hsend with ⟨hnone, rfl, rfl⟩ | ⟨g, hroute, rfl, rfl⟩
    · exact .dropped uid len data req hreq hnone
    · exact .forwarded uid len data req g hreq hroute
  | close uid =>
    simp only [disposeNetioServiceQue, Except.bind_eq_ok_iff] at h
    obtain ⟨⟨r₁, out₁⟩, hsend, ⟨ret, r₂⟩, hclear, h⟩ := h
    obtain ⟨rfl, rfl⟩ := Prod.mk.inj (Except.ok.inj h)
    simp only at hclear
    rcases sendMsg2GameLogic_cases hsend with ⟨hnone, rfl, rfl⟩ | ⟨g, hroute, rfl, rfl⟩
    · have hinv : r₁.sockId2gameLogic uid = playerTypeInvalid := hnone
      simp only [routeClearGamelogicId, if_pos hinv, Except.ok.injEq, Prod.mk.injEq] at hclear
      obtain ⟨-, rfl⟩ := hclear
      exact .closedUnrouted uid hnone
    · have hused : (r.lookedUp g).sockId2gameLogic uid ≠ playerTypeInvalid := hroute.not_unrouted
      have hg : (r.lookedUp g).gameServiceId = g.val := rfl
      simp only [routeClearGamelogicId, if_neg hused, hg, serviceIndex_val, bind, Except.bind,
        Except.ok.injEq, Prod.mk.injEq] at hclear
      obtain ⟨-, rfl⟩ := hclear
      exact .closed uid g hroute
  | success uid =>
    simp only [disposeNetioServiceQue, Except.bind_eq_ok_iff] at h
    obtain ⟨⟨ret, r₁⟩, hset, h⟩ := h
    by_cases hnew : r.Unrouted uid
    · rcases routeSetGamelogicId_of_unrouted hnew with ⟨g, hroom, he⟩ | ⟨-, he⟩
      · rw [he, Except.ok.injEq, Prod.mk.injEq] at hset
        obtain ⟨rfl, rfl⟩ := hset
        have hroute := r.routesTo_assign uid g
        have hret : (0 : ℤ) ≠ -1 := by omega
        rw [if_neg hret, sendMsg2GameLogic_of_routesTo hroute, Except.ok.injEq,
          Prod.mk.injEq] at h
        obtain ⟨rfl, rfl⟩ := h
        exact .routed uid g hnew hroom
      · rw [he] at hset
        cases hset
    · rw [routeSetGamelogicId_of_used hnew, Except.ok.injEq, Prod.mk.injEq] at hset
      obtain ⟨rfl, rfl⟩ := hset
      rw [if_pos rfl, Except.ok.injEq, Prod.mk.injEq] at h
      obtain ⟨rfl, rfl⟩ := h
      exact .refused uid hnew

/-! ### The counters -/

/-- Every entry is free or names a service, and the counter of a service is the number of the
uids that name it. -/
structure RouteInv (r : Router) : Prop where
  entry : ∀ u, r.Unrouted u ∨ ∃ g, r.RoutesTo u g
  count : ∀ g, r.onlinePlayer g = (r.routedTo g).card
  le : ∀ g, r.onlinePlayer g ≤ maxGameServicePlayerNum

/-- When a new connection is to be routed, some service has room. -/
def RoomForNew (r : Router) : IoMsg → Prop
  | .success uid => r.Unrouted uid → ∃ g, r.onlinePlayer g < maxGameServicePlayerNum
  | _ => True

instance (r : Router) : (msg : IoMsg) → Decidable (RoomForNew r msg)
  | .success uid => inferInstanceAs
      (Decidable (r.Unrouted uid → ∃ g, r.onlinePlayer g < maxGameServicePlayerNum))
  | .data _ _ _ => .isTrue trivial
  | .close _ => .isTrue trivial

theorem Router.routedTo_assign {r : Router} {uid : Uid} (hnew : r.Unrouted uid)
    (g g' : ServiceId) : (r.assign uid g).routedTo g' =
      if g' = g then insert uid (r.routedTo g') else r.routedTo g' := by
  ext u
  simp only [Router.mem_routedTo, Router.RoutesTo, Router.assign, Function.update_apply]
  by_cases hu : u = uid
  · subst hu
    rw [if_pos rfl, toInt_ofInt_service]
    split_ifs with hg
    · simp [hg]
    · have hne : (g.val : ℤ) ≠ g'.val := fun he => hg (Fin.ext (by omega))
      simp only [hne, Router.mem_routedTo, false_iff]
      exact fun hroute => hroute.not_unrouted hnew
  · rw [if_neg hu]
    split_ifs
    · simp only [Finset.mem_insert, hu, Router.mem_routedTo, Router.RoutesTo, false_or]
    · simp only [Router.mem_routedTo, Router.RoutesTo]

theorem Router.routedTo_release {r : Router} {uid : Uid} (g g' : ServiceId) :
    (r.release uid g).routedTo g' = (r.routedTo g').erase uid := by
  ext u
  simp only [Router.mem_routedTo, Finset.mem_erase, Router.RoutesTo, Router.release,
    Function.update_apply]
  by_cases hu : u = uid
  · subst hu
    have hne : playerTypeInvalid.toInt ≠ g'.val := by
      have hval : playerTypeInvalid.toInt = -1 := by rfl
      omega
    simp only [if_true, hne, ne_eq, not_true, false_and]
  · simp only [hu, if_false, ne_eq, not_false_iff, true_and]

namespace RouteInv

variable {P : Protobuf} {r r' : Router} {msg : IoMsg} {out : List NetOut}

theorem init (gamelogSocket : ServiceId → ℤ) (gameServiceId : ℤ) :
    RouteInv (routerCreat gamelogSocket gameServiceId) where
  entry _ := Or.inl rfl
  count g := by
    have hempty : (routerCreat gamelogSocket gameServiceId).routedTo g = ∅ := by
      ext u
      simp only [Router.mem_routedTo, Finset.notMem_empty, iff_false]
      exact fun hroute => hroute.not_unrouted rfl
    rw [hempty]
    rfl
  le _ := by simp [routerCreat]

theorem assign (h : RouteInv r) {uid : Uid} {g : ServiceId} (hnew : r.Unrouted uid)
    (hroom : r.onlinePlayer g < maxGameServicePlayerNum) : RouteInv (r.assign uid g) where
  entry u := by
    by_cases hu : u = uid
    · subst hu
      exact Or.inr ⟨g, r.routesTo_assign u g⟩
    · simpa only [Router.Unrouted, Router.RoutesTo, Router.assign, Function.update_of_ne hu]
        using h.entry u
  count g' := by
    have hnot : uid ∉ r.routedTo g' := fun hu => (Router.mem_routedTo.mp hu).not_unrouted hnew
    have hcount := h.count g'
    rw [Router.routedTo_assign hnew]
    simp only [Router.assign, Function.update_apply]
    split_ifs with hg
    · subst hg
      rw [Finset.card_insert_of_notMem hnot]
      omega
    · exact hcount
  le g' := by
    have hle := h.le g'
    simp only [Router.assign, Function.update_apply]
    split_ifs <;> omega

theorem release (h : RouteInv r) {uid : Uid} {g : ServiceId} (hroute : r.RoutesTo uid g) :
    RouteInv (r.release uid g) where
  entry u := by
    by_cases hu : u = uid
    · subst hu
      exact Or.inl (by simp only [Router.Unrouted, Router.release, Function.update_self])
    · simpa only [Router.Unrouted, Router.RoutesTo, Router.release, Function.update_of_ne hu]
        using h.entry u
  count g' := by
    have hcount := h.count g'
    rw [Router.routedTo_release]
    simp only [Router.release, Function.update_apply]
    split_ifs with hg
    · subst hg
      have hmem := Router.mem_routedTo.mpr hroute
      have hpos := Finset.card_pos.mpr ⟨uid, hmem⟩
      rw [Finset.card_erase_of_mem hmem]
      omega
    · have hnot : uid ∉ r.routedTo g' := by
        intro hu
        have hroute' := Router.mem_routedTo.mp hu
        simp only [Router.RoutesTo] at hroute hroute'
        exact hg (Fin.ext (by omega))
      rw [Finset.erase_eq_of_notMem hnot]
      exact hcount
  le g' := by
    have hle := h.le g'
    simp only [Router.release, Function.update_apply]
    split_ifs with hg
    · subst hg
      omega
    · exact hle

/-- **Step lemma.** -/
theorem step (h : RouteInv r) (hstep : RouteStep P r msg r' out) : RouteInv r' := by
  cases hstep with
  | routed uid g hnew hroom => exact h.assign hnew hroom
  | refused => exact h
  | forwarded uid len data req g => exact ⟨h.entry, h.count, h.le⟩
  | dropped => exact h
  | closed uid g hroute => exact h.release hroute
  | closedUnrouted => exact h

end RouteInv

/-- Queues and sockets stay as they were set up. -/
theorem RouteStep.arrays_eq {P : Protobuf} {r r' : Router} {msg : IoMsg} {out : List NetOut}
    (h : RouteStep P r msg r' out) :
    r'.que2Gamelogic = r.que2Gamelogic ∧ r'.gamelogSocket = r.gamelogSocket := by
  cases h <;> exact ⟨rfl, rfl⟩

/-- **Inversion of faults.** A message fails because its frame cannot be unpacked, because its
entry names no service, or because a new connection finds every service full. -/
theorem disposeNetioServiceQue_fault {P : Protobuf} {r : Router} {msg : IoMsg} {e : Fault}
    (hinv : RouteInv r) (h : disposeNetioServiceQue P r msg = .error e) :
    (∃ uid len data, msg = .data uid len data ∧ unpackUserData P data len = .error e) ∨
    (e = .serviceRange ∧ ¬RoomForNew r msg) := by
  have hsend (m : GameMsg) (uid : Uid) : sendMsg2GameLogic r m uid ≠ .error e := by
    rcases hinv.entry uid with hnone | ⟨g, hroute⟩
    · rw [sendMsg2GameLogic_of_unrouted hnone]
      exact fun he => by cases he
    · rw [sendMsg2GameLogic_of_routesTo hroute]
      exact fun he => by cases he
  cases msg with
  | data uid len data =>
    simp only [disposeNetioServiceQue, Except.bind_eq_error_iff] at h
    rcases h with h | ⟨req, -, h⟩
    · exact Or.inl ⟨uid, len, data, rfl, h⟩
    · exact absurd h (hsend _ uid)
  | close uid =>
    exfalso
    simp only [disposeNetioServiceQue, Except.bind_eq_error_iff] at h
    rcases h with h | ⟨⟨r₁, out⟩, hok, h⟩
    · exact hsend _ uid h
    · rcases sendMsg2GameLogic_cases hok with ⟨hnone, rfl, rfl⟩ | ⟨g, hroute, rfl, rfl⟩
      · have hinv : r₁.sockId2gameLogic uid = playerTypeInvalid := hnone
        simp [routeClearGamelogicId, hinv] at h
      · have hused : (r.lookedUp g).sockId2gameLogic uid ≠ playerTypeInvalid :=
          hroute.not_unrouted
        have hg : (r.lookedUp g).gameServiceId = g.val := rfl
        simp [routeClearGamelogicId, hused, hg, serviceIndex_val, bind, Except.bind] at h
  | success uid =>
    simp only [disposeNetioServiceQue, Except.bind_eq_error_iff] at h
    by_cases hnew : r.Unrouted uid
    · rcases routeSetGamelogicId_of_unrouted hnew with ⟨g, hroom, he⟩ | ⟨hfull, he⟩
      · have hroute : (r.assign uid g).RoutesTo uid g := by
          simp only [Router.RoutesTo, Router.assign, Function.update_self, toInt_ofInt_service]
        simp [he, sendMsg2GameLogic_of_routesTo hroute] at h
      · right
        simp only [he, Except.error.injEq, reduceCtorEq, false_and, exists_false, or_false] at h
        refine ⟨h.symm, fun hroom => ?_⟩
        obtain ⟨g, hg⟩ := hroom hnew
        exact absurd (hfull g) (not_le.mpr hg)
    · simp [routeSetGamelogicId_of_used hnew] at h

/-- A message for the game service `g`: the node for its queue and the wake-up of its socket. -/
def passedTo (gamelogSocket : ServiceId → ℤ) (g : ServiceId) (m : GameMsg) : List NetOut :=
  [.pushGame (.netlogic2Game g) m, .wakeGame (gamelogSocket g)]

/-- What net logic sends for a message. A new connection is passed to the service that the table
names for it from then on, and the connect of a routed uid is reported to net IO. The data and the
close of a routed uid are passed to the service that the table names, and those of an unrouted uid
to nobody. -/
def SentAsNamed (P : Protobuf) (gamelogSocket : ServiceId → ℤ) (r r' : Router)
    (out : List NetOut) : IoMsg → Prop
  | .success uid =>
    (r.Unrouted uid → ∃ g, r'.RoutesTo uid g ∧ out = passedTo gamelogSocket g (.success uid)) ∧
      (¬r.Unrouted uid → r' = r ∧ out = reportServiceFull uid)
  | .data uid len data =>
    (r.Unrouted uid → out = []) ∧
      (¬r.Unrouted uid → ∃ g req, r.RoutesTo uid g ∧ unpackUserData P data len = .ok req ∧
        out = passedTo gamelogSocket g (.data uid req))
  | .close uid =>
    (r.Unrouted uid → out = []) ∧
      (¬r.Unrouted uid → ∃ g, r.RoutesTo uid g ∧ out = passedTo gamelogSocket g (.close uid))

/-- A step sends what the table says, as long as the queues and the sockets are those of the
services. -/
theorem RouteStep.sentAsNamed {P : Protobuf} {gamelogSocket : ServiceId → ℤ} {r r' : Router}
    {msg : IoMsg} {out : List NetOut} (h : RouteStep P r msg r' out)
    (hque : r.que2Gamelogic = fun g => .netlogic2Game g) (hsock : r.gamelogSocket = gamelogSocket) :
    SentAsNamed P gamelogSocket r r' out msg := by
  have hsends (g : ServiceId) (m : GameMsg) : r.sendsTo g m = passedTo gamelogSocket g m := by
    rw [Router.sendsTo, hque, hsock, passedTo]
  cases h with
  | routed uid g hnew hroom =>
    exact ⟨fun _ => ⟨g, r.routesTo_assign uid g, hsends g _⟩, fun hused => absurd hnew hused⟩
  | refused uid hused => exact ⟨fun hnew => absurd hnew hused, fun _ => ⟨rfl, rfl⟩⟩
  | forwarded uid len data req g hreq hroute =>
    exact ⟨fun hnone => absurd hnone hroute.not_unrouted,
      fun _ => ⟨g, req, hroute, hreq, hsends g _⟩⟩
  | dropped uid len data req _ hnone => exact ⟨fun _ => rfl, fun hused => absurd hnone hused⟩
  | closed uid g hroute =>
    exact ⟨fun hnone => absurd hnone hroute.not_unrouted, fun _ => ⟨g, hroute, hsends g _⟩⟩
  | closedUnrouted uid hnone => exact ⟨fun _ => rfl, fun hused => absurd hnone hused⟩

/-- **Counters, queues and sockets agree with the table.** As long as some service has room for
every new connection, the counter of each service is the number of the uids that name it, at most
`MAX_GAME_SERVICE_PLAYER_NUM`. The next message is handled, unless its frame cannot be unpacked,
and leaves no per-service array. It is pushed to the queue of the service that the table names for
its uid, and the wake-up goes to the socket of the same service; only the messages of an unrouted
uid are dropped, and only a repeated connect is turned away. -/
theorem route_counts {P : Protobuf} {gamelogSocket : ServiceId → ℤ} {gameServiceId : ℤ}
    {is : List IoMsg} {os : List NetOut} {r : Router}
    (hrun : (netMachine P).Exec RoomForNew (routerCreat gamelogSocket gameServiceId) is os r) :
    (∀ g, r.onlinePlayer g =
        (Finset.univ.filter fun u => (r.sockId2gameLogic u).toInt = g.val).card ∧
      0 ≤ r.onlinePlayer g ∧ r.onlinePlayer g ≤ maxGameServicePlayerNum) ∧
    ∀ msg, RoomForNew r msg →
      (∀ e, (netMachine P).step r msg = .error e → e ≠ .serviceRange ∧
        ∃ uid len data, msg = .data uid len data ∧ unpackUserData P data len = .error e) ∧
      ∀ r' out, (netMachine P).step r msg = .ok (r', out) →
        SentAsNamed P gamelogSocket r r' out msg := by
  have hall : RouteInv r ∧ r.que2Gamelogic = (fun g => .netlogic2Game g) ∧
      r.gamelogSocket = gamelogSocket := by
    refine hrun.invariant (P := fun r => RouteInv r ∧
      r.que2Gamelogic = (fun g => .netlogic2Game g) ∧ r.gamelogSocket = gamelogSocket)
      ⟨RouteInv.init _ _, rfl, rfl⟩ ?_
    rintro s i s' o ⟨hinv, hque, hsock⟩ - hstep
    have hs := disposeNetioServiceQue_step hstep
    obtain ⟨hque', hsock'⟩ := hs.arrays_eq
    exact ⟨hinv.step hs, hque'.trans hque, hsock'.trans hsock⟩
  obtain ⟨hinv, hque, hsock⟩ := hall
  refine ⟨fun g => ⟨hinv.count g, ?_, hinv.le g⟩, fun msg hroom => ⟨fun e hfault => ?_, ?_⟩⟩
  · rw [hinv.count]
    omega
  · rcases disposeNetioServiceQue_fault hinv hfault with ⟨uid, len, data, rfl, hunpack⟩ | ⟨-, hfull⟩
    · refine ⟨?_, uid, len, data, rfl, hunpack⟩
      rcases unpackUserData_fault hunpack with rfl | rfl | rfl <;> exact fun he => by cases he
    · exact absurd hroom hfull
  · exact fun r' out hstep => (disposeNetioServiceQue_step hstep).sentAsNamed hque hsock

/-- The service 0 is full, and the next connection goes to the service 1, as does its start request.
A repeated connect is turned away, the close of an unrouted uid is dropped, and a connection of the
service 0 closes. -/
def secondService : List IoMsg :=
  (List.range 200).map (fun i => .success (Fin.ofNat maxSocket (i + 3))) ++
    [.success 203, .data 203 3 ['S'.toUInt8, 8, 1], .success 4, .close 900, .close 3]

theorem route_counts_run : ∃ r os r' out,
    (netMachine oneByteProtobuf).Exec RoomForNew (routerCreat (fun g => g.val + 7) 42)
      secondService os r ∧
    os.drop 400 = [.pushGame (.netlogic2Game 1) (.success 203), .wakeGame 8,
      .pushGame (.netlogic2Game 1) (.data 203 (.gameStartReq (some ⟨true⟩))), .wakeGame 8,
      .pushNetIo (.serviceFull 4), .wakeNetIo,
      .pushGame (.netlogic2Game 0) (.close 3), .wakeGame 7] ∧
    r.onlinePlayer 0 = 199 ∧ r.onlinePlayer 1 = 1 ∧
    r.onlinePlayer 1 = (Finset.univ.filter fun u => (r.sockId2gameLogic u).toInt = 1).card ∧
    (netMachine oneByteProtobuf).step r (.close 203) = .ok (r', out) ∧
    SentAsNamed oneByteProtobuf (fun g => g.val + 7) r r' out (.close 203) ∧
    out = [.pushGame (.netlogic2Game 1) (.close 203), .wakeGame 8] := by
  have hrun : ((netMachine oneByteProtobuf).run RoomForNew (routerCreat (fun g => g.val + 7) 42)
      secondService).map (fun p => (p.2.drop 400, p.1.onlinePlayer 0, p.1.onlinePlayer 1,
        ((netMachine oneByteProtobuf).step p.1 (.close 203)).map Prod.snd)) =
      some ([.pushGame (.netlogic2Game 1) (.success 203), .wakeGame 8,
        .pushGame (.netlogic2Game 1) (.data 203 (.gameStartReq (some ⟨true⟩))), .wakeGame 8,
        .pushNetIo (.serviceFull 4), .wakeNetIo,
        .pushGame (.netlogic2Game 0) (.close 3), .wakeGame 7], 199, 1,
        .ok [.pushGame (.netlogic2Game 1) (.close 203), .wakeGame 8]) := by
    decide +kernel
  obtain ⟨r, os, hrun, hobs⟩ := (netMachine oneByteProtobuf).exec_of_run_map hrun
  obtain ⟨hsent, hobs⟩ := Prod.mk.inj hobs
  obtain ⟨hfirst, hobs⟩ := Prod.mk.inj hobs
  obtain ⟨hsecond, hnext⟩ := Prod.mk.inj hobs
  obtain ⟨⟨r', out⟩, hstep, hout⟩ := Except.map_eq_ok_iff.mp hnext
  obtain ⟨hcounts, hmessages⟩ := route_counts hrun
  exact ⟨r, os, r', out, hrun, hsent, hfirst, hsecond, (hcounts 1).1, hstep,
    (hmessages (.close 203) trivial).2 r' out hstep, hout⟩

/-! ### A full router -/

/-- The router refuses the new uid: its tables stay as they are, and the only effect is a node to
net IO that names the uid. -/
def RefusesNew (P : Protobuf) (r : Router) (uid : Uid) : Prop :=
  (∃ r', routeSetGamelogicId r uid = .ok (-1, r')) ∧
    ∃ r', disposeNetioServiceQue P r (.success uid) = .ok (r', reportServiceFull uid) ∧
      r'.sockId2gameLogic = r.sockId2gameLogic ∧ r'.onlinePlayer = r.onlinePlayer

/-- A router without room indexes its counters with the `-1` that came back as 255. -/
theorem routeSetGamelogicId_of_full {r : Router} {uid : Uid}
    (hfull : ∀ g, r.onlinePlayer g = maxGameServicePlayerNum) (hnew : r.Unrouted uid) :
    routeSetGamelogicId r uid = .error .serviceRange := by
  rcases routeSetGamelogicId_of_unrouted hnew with ⟨g, hroom, -⟩ | ⟨-, he⟩
  · exact absurd (hfull g) hroom.ne
  · exact he

/-- **A full router refuses no one.** Whenever every game service has
`MAX_GAME_SERVICE_PLAYER_NUM` players, a connect of an unrouted uid leaves the per-service arrays
and is not refused. -/
theorem full_router_never_refuses {P : Protobuf} {r : Router} {uid : Uid}
    (hfull : ∀ g, r.onlinePlayer g = maxGameServicePlayerNum) (hnew : r.Unrouted uid) :
    disposeNetioServiceQue P r (.success uid) = .error .serviceRange ∧ ¬RefusesNew P r uid := by
  have hset := routeSetGamelogicId_of_full hfull hnew
  constructor
  · simp only [disposeNetioServiceQue, hset, bind, Except.bind]
  · rintro ⟨⟨r', hok⟩, -⟩
    rw [hset] at hok
    cases hok

/-- A connect of a new uid while some service has room. -/
theorem disposeNetioServiceQue_success {r : Router} {uid : Uid} (P : Protobuf)
    (hnew : r.Unrouted uid) (hroom : ∃ g, r.onlinePlayer g < maxGameServicePlayerNum) :
    ∃ g out, disposeNetioServiceQue P r (.success uid) = .ok (r.assign uid g, out) := by
  rcases routeSetGamelogicId_of_unrouted hnew with ⟨g, -, he⟩ | ⟨hfull, -⟩
  · have hroute := r.routesTo_assign uid g
    have hret : (0 : ℤ) ≠ -1 := by omega
    refine ⟨g, (r.assign uid g).sendsTo g (.success uid), ?_⟩
    simp only [disposeNetioServiceQue, he, bind, Except.bind, if_neg hret,
      sendMsg2GameLogic_of_routesTo hroute]
    rfl
  · obtain ⟨g, hg⟩ := hroom
    exact absurd (hfull g) (not_le.mpr hg)

theorem Router.sum_onlinePlayer_assign (r : Router) (uid : Uid) (g : ServiceId) :
    ∑ g', (r.assign uid g).onlinePlayer g' = ∑ g', r.onlinePlayer g' + 1 := by
  have hsplit := Finset.add_sum_erase Finset.univ r.onlinePlayer (Finset.mem_univ g)
  simp only [Router.assign]
  rw [Finset.sum_update_of_mem (Finset.mem_univ g), Finset.sdiff_singleton_eq_erase]
  omega

/-- The places of the four services. -/
theorem sum_maxGameServicePlayerNum : ∑ _g : ServiceId, (maxGameServicePlayerNum : ℤ) = 800 := rfl

/-- Any number of clients up to the limits of the services can be connected. -/
theorem exists_online (P : Protobuf) (gamelogSocket : ServiceId → ℤ) (gameServiceId : ℤ) (n : ℕ)
    (hn : n ≤ 800) : ∃ is os r,
      (netMachine P).Exec Machine.any (routerCreat gamelogSocket gameServiceId) is os r ∧
      RouteInv r ∧ ∑ g, r.onlinePlayer g = n ∧ ∀ u : Uid, n ≤ u.val → r.Unrouted u := by
  induction n with
  | zero => exact ⟨_, _, _, .init, RouteInv.init _ _, rfl, fun _ _ => rfl⟩
  | succ n ih =>
    obtain ⟨is, os, r, hrun, hinv, hsum, hnew⟩ := ih (Nat.le_of_succ_le hn)
    have hroom : ∃ g, r.onlinePlayer g < maxGameServicePlayerNum := by
      by_contra hfull
      simp only [not_exists, not_lt] at hfull
      have hle := Finset.sum_le_sum fun g (_ : g ∈ Finset.univ) => hfull g
      rw [hsum, sum_maxGameServicePlayerNum] at hle
      omega
    have hlt : n < maxSocket := Nat.lt_of_lt_of_le hn (by decide)
    let uid : Uid := ⟨n, hlt⟩
    obtain ⟨g, out, he⟩ := disposeNetioServiceQue_success P (hnew uid le_rfl) hroom
    have hstep : (netMachine P).step r (.success uid) = .ok (r.assign uid g, out) := he
    refine ⟨_, _, r.assign uid g, hrun.next trivial hstep,
      hinv.step (disposeNetioServiceQue_step he), ?_, fun u hu => ?_⟩
    · rw [r.sum_onlinePlayer_assign, hsum]
      rfl
    · have hne : u ≠ uid := by
        rintro rfl
        exact absurd hu (Nat.not_succ_le_self n)
      simpa only [Router.Unrouted, Router.assign, Function.update_of_ne hne] using
        hnew u (Nat.le_of_succ_le hu)

/-- The limits can be reached. -/
theorem exists_full (P : Protobuf) (gamelogSocket : ServiceId → ℤ) (gameServiceId : ℤ) :
    ∃ is os r, (netMachine P).Exec Machine.any (routerCreat gamelogSocket gameServiceId) is os r ∧
      (∀ g, r.onlinePlayer g = maxGameServicePlayerNum) ∧ r.Unrouted 800 := by
  obtain ⟨is, os, r, hrun, hinv, hsum, hnew⟩ :=
    exists_online P gamelogSocket gameServiceId 800 le_rfl
  have hall := (Finset.sum_eq_sum_iff_of_le fun g (_ : g ∈ Finset.univ) => hinv.le g).mp
    (hsum.trans sum_maxGameServicePlayerNum.symm)
  exact ⟨is, os, r, hrun, fun g => hall g (Finset.mem_univ g), hnew 800 (by decide)⟩

/-- A router with 800 players, and the connect of one more. -/
theorem full_router_never_refuses_next : ∃ is os r,
    (netMachine oneByteProtobuf).Exec Machine.any (routerCreat (fun g => g.val + 7) 42) is os r ∧
    (∀ g, r.onlinePlayer g = maxGameServicePlayerNum) ∧ r.Unrouted 800 ∧
    disposeNetioServiceQue oneByteProtobuf r (.success 800) = .error .serviceRange ∧
    ¬RefusesNew oneByteProtobuf r 800 := by
  obtain ⟨is, os, r, hrun, hfull, hnew⟩ :=
    exists_full oneByteProtobuf (fun g => g.val + 7) 42
  exact ⟨is, os, r, hrun, hfull, hnew, full_router_never_refuses hfull hnew⟩

/-- With 800 players the sentinel has become the service 255. -/
theorem full_router_out_of_range : ∃ is os r,
    (netMachine oneByteProtobuf).Exec Machine.any (routerCreat (fun g => g.val + 7) 42) is os r ∧
    (∀ g, r.onlinePlayer g = maxGameServicePlayerNum) ∧ r.Unrouted 800 ∧
    (routeDistributeGamelogic r).toNat = 255 ∧ ¬RefusesNew oneByteProtobuf r 800 := by
  obtain ⟨is, os, r, hrun, hfull, hnew⟩ :=
    exists_full oneByteProtobuf (fun g => g.val + 7) 42
  refine ⟨is, os, r, hrun, hfull, hnew, ?_, ?_⟩
  · have hnone : (List.finRange gameLogicServiceNum).find?
        (fun g => r.onlinePlayer g < maxGameServicePlayerNum) = none := by
      simp only [List.find?_eq_none, decide_eq_true_eq]
      exact fun g _ hlt => hlt.ne (hfull g)
    simp only [routeDistributeGamelogic, hnone]
    rfl
  · rintro ⟨⟨r', hok⟩, -⟩
    rw [routeSetGamelogicId_of_full hfull hnew] at hok
    cases hok

end GameServer
