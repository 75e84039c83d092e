import GameServer.Library.Session
import GameServer.Server.Delivery

/-!
# The connections and the services that serve them

Net logic keeps the service of a uid in its router, and sets, reads and clears the entry as the
messages of the uid come by, between those of all others. The nodes of net IO carry the numbers of
their connections, so that the messages of one connection can be followed to the game services:
while a connection is open, the entry of its uid names the service that has got all its messages.

## Main definitions

* `Conn`, `ConnSession` : the session of a uid in what net IO pushes.
* `Passes` : what net logic makes of a message of net IO.
* `Serves`, `UidInv` : the service of a connection, and how the router agrees with the sessions.

## Main results

* `UidInv.message`, `ConnInv.step` : the step lemmas.
* `connection_to_one_service` : the messages of a connection reach one game service, in order.
-/

namespace GameServer

/-- The session of a uid in what net IO pushes: the number of its last connection, and whether that
connection is open. -/
inductive Conn
  | closed (n : ℕ)
  | opened (n : ℕ)
deriving DecidableEq, Repr

/-- The number of the last connection. -/
def Conn.number : Conn → ℕ
  | .closed n => n
  | .opened n => n

/-- `TYPE_SUCCESS` opens the connection with the next number, `TYPE_DATA` comes in between and
`TYPE_CLOSE` closes. -/
def Conn.next : Conn → IoMsg × ℕ → Option Conn
  | .closed n, (.success _, m) => if m = n + 1 then some (.opened m) else none
  | .opened n, (.data _ _ _, m) => if m = n then some (.opened m) else none
  | .opened n, (.close _, m) => if m = n then some (.closed m) else none
  | _, _ => none

/-- Net IO has pushed repetitions of `TYPE_SUCCESS`, `TYPE_DATA` and `TYPE_CLOSE` for every uid. -/
def ConnSession (l : List (IoMsg × ℕ)) : Prop :=
  IsSession (fun p => p.1.uid) Conn.next (.closed 0) l

instance (l : List (IoMsg × ℕ)) : Decidable (ConnSession l) :=
  inferInstanceAs (Decidable (IsSession (fun p => p.1.uid) Conn.next (.closed 0) l))

/-- The message of a node from net IO, with the number of its connection. -/
def QueNode.ioMsg : QueNode → Option (IoMsg × ℕ)
  | .netio2Netlogic msg conn => some (msg, conn)
  | _ => none

/-- What net IO has pushed. -/
def ioPushed (os : List ThreadsOut) : List (IoMsg × ℕ) :=
  (pushes .netio2Netlogic os).filterMap QueNode.ioMsg

/-- What net logic has popped of it. -/
def ioPopped (os : List ThreadsOut) : List (IoMsg × ℕ) :=
  (pops .netio2Netlogic os).filterMap QueNode.ioMsg

/-- The messages of the connection `n` of `uid`. -/
def ofConn (uid : Uid) (n : ℕ) (l : List (IoMsg × ℕ)) : List IoMsg :=
  l.filterMap fun p => if p.1.uid = uid ∧ p.2 = n then some p.1 else none

/-- The message of a node for the game service `g` about the connection `n` of `uid`. -/
def QueNode.gameMsg (g : ServiceId) (uid : Uid) (n : ℕ) : QueNode → Option GameMsg
  | .netlogic2Game g' msg conn => if g' = g ∧ msg.uid = uid ∧ conn = n then some msg else none
  | _ => none

/-- What the game service `g` has popped of the connection `n` of `uid`. -/
def delivered (g : ServiceId) (uid : Uid) (n : ℕ) (os : List ThreadsOut) : List GameMsg :=
  (pops (.netlogic2Game g) os).filterMap (QueNode.gameMsg g uid n)

/-- What net logic makes of a message: it keeps the kind and the uid, and unpacks the frame. -/
def Passes (P : Protobuf) : IoMsg → GameMsg → Prop
  | .success uid, m => m = .success uid
  | .close uid, m => m = .close uid
  | .data uid len data, m => ∃ req, unpackUserData P data len = .ok req ∧ m = .data uid req

/-- What net logic has sent of the connection `n` of `uid` went to `g`, and is what it has popped of
that connection. -/
structure Serves (P : Protobuf) (os : List ThreadsOut) (s : Threads) (uid : Uid) (n : ℕ)
    (g : ServiceId) : Prop where
  only : ∀ g' ≠ g, (netLogicSent os s).filterMap (QueNode.gameMsg g' uid n) = []
  sent : List.Forall₂ (Passes P) (ofConn uid n (ioPopped os))
    ((netLogicSent os s).filterMap (QueNode.gameMsg g uid n))

/-- The router agrees with the sessions: the uids of closed connections have no entry, and the entry
of an open one names the service of its connection. -/
structure UidInv (P : Protobuf) (os : List ThreadsOut) (s : Threads) (uid : Uid) (c : Conn) :
    Prop where
  session : sessionAfter (fun p => p.1.uid) Conn.next (.closed 0) uid (ioPopped os) = some c
  closed : ∀ n, c = .closed n → s.router.Unrouted uid
  opened : ∀ n, c = .opened n → ∃ g, s.router.RoutesTo uid g ∧ Serves P os s uid n g
  fresh : ∀ n, c.number < n → ofConn uid n (ioPopped os) = []
  served : ∀ n, ∃ g, Serves P os s uid n g

theorem gameMsg_ne_none {g : ServiceId} {uid : Uid} {n : ℕ} {node : QueNode}
    (h : QueNode.gameMsg g uid n node ≠ none) :
    node.que = .netlogic2Game g ∧ node.producer = .netLogic := by
  cases node with
  | netlogic2Game g' msg conn =>
    by_cases hg : g' = g
    · exact ⟨congrArg QueId.netlogic2Game hg, rfl⟩
    · exact absurd (if_neg fun hand => hg hand.1) h
  | netio2Netlogic | netlogic2Netio | gamelogic2Netlogic => exact absurd rfl h

theorem ofConn_append (uid : Uid) (n : ℕ) (l l' : List (IoMsg × ℕ)) :
    ofConn uid n (l ++ l') = ofConn uid n l ++ ofConn uid n l' := List.filterMap_append

theorem ioPopped_append (os os' : List ThreadsOut) :
    ioPopped (os ++ os') = ioPopped os ++ ioPopped os' := by
  rw [ioPopped, pops_append, List.filterMap_append]
  rfl

/-- The session says which number a message of the uid may have. -/
theorem Conn.number_of_next {c c' : Conn} {msg : IoMsg} {conn : ℕ}
    (h : c.next (msg, conn) = some c') : c.number ≤ conn ∧ c'.number = conn := by
  cases c with
  | closed n =>
    cases msg with
    | success uid =>
      simp only [Conn.next, Option.ite_none_right_eq_some, Option.some.injEq] at h
      obtain ⟨rfl, rfl⟩ := h
      exact ⟨Nat.le_succ n, rfl⟩
    | data | close => cases h
  | opened n =>
    cases msg with
    | success uid => cases h
    | data | close =>
      simp only [Conn.next, Option.ite_none_right_eq_some, Option.some.injEq] at h
      obtain ⟨rfl, rfl⟩ := h
      exact ⟨Nat.le_refl conn, rfl⟩

theorem Router.RoutesTo.unique {r : Router} {uid : Uid} {g g' : ServiceId}
    (h : r.RoutesTo uid g) (h' : r.RoutesTo uid g') : g = g' := by
  unfold Router.RoutesTo at h h'
  apply Fin.ext
  omega

/-- A message changes the entry of its own uid only. -/
theorem RouteStep.sockId_of_ne {P : Protobuf} {r r' : Router} {msg : IoMsg} {out : List NetOut}
    (h : RouteStep P r msg r' out) {v : Uid} (hv : v ≠ msg.uid) :
    r'.sockId2gameLogic v = r.sockId2gameLogic v := by
  cases h with
  | routed | closed => exact Function.update_of_ne hv ..
  | refused | forwarded | dropped | closedUnrouted => rfl

section Serves

variable {P : Protobuf} {os out : List ThreadsOut} {s s' : Threads} {uid : Uid} {n : ℕ}
  {g : ServiceId}

theorem Serves.congr {os' : List ThreadsOut} (h : Serves P os s uid n g)
    (hconn : ofConn uid n (ioPopped os') = ofConn uid n (ioPopped os))
    (hsent : ∀ g, (netLogicSent os' s').filterMap (QueNode.gameMsg g uid n) =
      (netLogicSent os s).filterMap (QueNode.gameMsg g uid n)) : Serves P os' s' uid n g :=
  ⟨fun g' hg' => (hsent g').trans (h.only g' hg'), by rw [hconn, hsent]; exact h.sent⟩

/-- A connection that has not begun may be given to any service. -/
theorem Serves.of_nil (h : Serves P os s uid n g) (hnil : ofConn uid n (ioPopped os) = [])
    (g' : ServiceId) : Serves P os s uid n g' := by
  have hsent := h.sent
  rw [hnil, List.forall₂_nil_left_iff] at hsent
  have hall (k : ServiceId) : (netLogicSent os s).filterMap (QueNode.gameMsg k uid n) = [] := by
    by_cases hk : k = g
    · rw [hk, hsent]
    · exact h.only k hk
  refine ⟨fun k _ => hall k, ?_⟩
  rw [hnil, hall]
  exact .nil

/-- What concerns a uid is kept by a step that is about none of its messages. -/
theorem UidInv.frame {c : Conn} (h : UidInv P os s uid c)
    (hsock : s'.router.sockId2gameLogic uid = s.router.sockId2gameLogic uid)
    (hsession : sessionAfter (fun p => p.1.uid) Conn.next (.closed 0) uid (ioPopped (os ++ out)) =
      sessionAfter (fun p => p.1.uid) Conn.next (.closed 0) uid (ioPopped os))
    (hconn : ∀ n, ofConn uid n (ioPopped (os ++ out)) = ofConn uid n (ioPopped os))
    (hsent : ∀ g n, (netLogicSent (os ++ out) s').filterMap (QueNode.gameMsg g uid n) =
      (netLogicSent os s).filterMap (QueNode.gameMsg g uid n)) :
    UidInv P (os ++ out) s' uid c where
  session := hsession.trans h.session
  closed n hn := hsock.trans (h.closed n hn)
  opened n hn := by
    obtain ⟨g, hroute, hserves⟩ := h.opened n hn
    exact ⟨g, by rwa [Router.RoutesTo, hsock], hserves.congr (hconn n) fun g => hsent g n⟩
  fresh n hn := (hconn n).trans (h.fresh n hn)
  served n := by
    obtain ⟨g, hserves⟩ := h.served n
    exact ⟨g, hserves.congr (hconn n) fun g => hsent g n⟩

/-- What concerns a uid after one of its messages has been passed on to the service that serves its
connection. -/
theorem UidInv.send {msg : IoMsg} {conn : ℕ} {m : GameMsg} {c c' : Conn}
    (h : UidInv P os s msg.uid c) (hnext : c.next (msg, conn) = some c')
    (hserves : Serves P os s msg.uid conn g) (hpass : Passes P msg m) (hm : m.uid = msg.uid)
    (hio : ioPopped out = [(msg, conn)])
    (hsent : netLogicSent (os ++ out) s' = netLogicSent os s ++ [.netlogic2Game g m conn])
    (hclosed : ∀ n, c' = .closed n → s'.router.Unrouted msg.uid)
    (hopened : ∀ n, c' = .opened n → s'.router.RoutesTo msg.uid g) :
    UidInv P (os ++ out) s' msg.uid c' := by
  obtain ⟨hle, hnumber⟩ := Conn.number_of_next hnext
  have hconn (n : ℕ) : ofConn msg.uid n (ioPopped (os ++ out)) =
      ofConn msg.uid n (ioPopped os) ++ if conn = n then [msg] else [] := by
    rw [ioPopped_append, ofConn_append, hio]
    by_cases hn : conn = n <;> simp [ofConn, hn]
  have hgame (k : ServiceId) (n : ℕ) :
      (netLogicSent (os ++ out) s').filterMap (QueNode.gameMsg k msg.uid n) =
        (netLogicSent os s).filterMap (QueNode.gameMsg k msg.uid n) ++
          if g = k ∧ conn = n then [m] else [] := by
    rw [hsent, List.filterMap_append]
    by_cases hk : g = k ∧ conn = n
    · simp [QueNode.gameMsg, hk, hm]
    · have hk' : ¬(g = k ∧ m.uid = msg.uid ∧ conn = n) := fun hand => hk ⟨hand.1, hand.2.2⟩
      simp [QueNode.gameMsg, hk, hk']
  have hsame : Serves P (os ++ out) s' msg.uid conn g := by
    refine ⟨fun k hk => ?_, ?_⟩
    · rw [hgame, hserves.only k hk, if_neg fun hand => hk hand.1.symm]
      rfl
    · rw [hconn, hgame, if_pos rfl, if_pos ⟨rfl, rfl⟩]
      exact List.rel_append hserves.sent (.cons hpass .nil)
  have hother {n : ℕ} (hn : n ≠ conn) {k : ServiceId} (hk : Serves P os s msg.uid n k) :
      Serves P (os ++ out) s' msg.uid n k := by
    refine hk.congr ?_ fun k => ?_
    · rw [hconn, if_neg (Ne.symm hn), List.append_nil]
    · rw [hgame, if_neg fun hand => hn hand.2.symm, List.append_nil]
  refine ⟨?_, hclosed, fun n hn => ⟨g, hopened n hn, ?_⟩, fun n hn => ?_, fun n => ?_⟩
  · rw [ioPopped_append, hio]
    exact sessionAfter_append_eq_some h.session hnext
  · rw [hn, Conn.number] at hnumber
    rw [hnumber]
    exact hsame
  · rw [hconn, h.fresh n (by omega), if_neg (by omega)]
    rfl
  · by_cases hn : n = conn
    · subst hn
      exact ⟨g, hsame⟩
    · obtain ⟨k, hk⟩ := h.served n
      exact ⟨k, hother hn hk⟩

end Serves

/-- **Step lemma.** A message that net logic passes on belongs to the connection that its uid has
open, and goes to the service of that connection. -/
theorem UidInv.message {P : Protobuf} {os out : List ThreadsOut} {s s' : Threads} {msg : IoMsg}
    {conn : ℕ} {nout : List NetOut} {acts : List Act} {c c' : Conn}
    (h : UidInv P os s msg.uid c) (hinv : ThreadsInv s) (hnext : c.next (msg, conn) = some c')
    (hio : ioPopped out = [(msg, conn)]) (hroute : RouteStep P s.router msg s'.router nout)
    (hacts : nout.mapM (NetOut.act conn none) = .ok acts)
    (hsent : netLogicSent (os ++ out) s' = netLogicSent os s ++ pendingPushes acts) :
    UidInv P (os ++ out) s' msg.uid c' := by
  have hsends {g : ServiceId} {m : GameMsg} (hout : nout = s.router.sendsTo g m) :
      netLogicSent (os ++ out) s' = netLogicSent os s ++ [.netlogic2Game g m conn] := by
    rw [hout, hinv.wired.mapM_sendsTo] at hacts
    rw [hsent, ← Except.ok.inj hacts]
    rfl
  -- an open connection has a service, and the entry of the uid names it
  have hrouted {k : ℕ} (hk : c = .opened k) : ¬s.router.Unrouted msg.uid := by
    obtain ⟨g, hroute, -⟩ := h.opened k hk
    exact hroute.not_unrouted
  have hserved {k : ℕ} {g : ServiceId} (hk : c = .opened k)
      (hroute : s.router.RoutesTo msg.uid g) : Serves P os s msg.uid k g := by
    obtain ⟨g', hroute', hserves⟩ := h.opened k hk
    obtain rfl := hroute'.unique hroute
    exact hserves
  generalize hr : s'.router = r' at hroute
  cases hroute with
  | routed uid g hnew hroom =>
    cases c with
    | opened k => cases hnext
    | closed k =>
      simp only [Conn.next, Option.ite_none_right_eq_some, Option.some.injEq] at hnext
      obtain ⟨rfl, rfl⟩ := hnext
      obtain ⟨g', hg'⟩ := h.served (k + 1)
      refine h.send (if_pos rfl) (hg'.of_nil (h.fresh _ (Nat.lt_succ_self k)) g) rfl rfl hio
        (hsends rfl) (fun n hn => by cases hn) fun n _ => ?_
      rw [hr]
      exact s.router.routesTo_assign uid g
  | refused uid hused =>
    cases c with
    | opened k => cases hnext
    | closed k => exact absurd (h.closed k rfl) hused
  | forwarded uid len data req g hreq hroute =>
    cases c with
    | closed k => cases hnext
    | opened k =>
      simp only [Conn.next, Option.ite_none_right_eq_some, Option.some.injEq] at hnext
      obtain ⟨rfl, rfl⟩ := hnext
      refine h.send (if_pos rfl) (hserved rfl hroute) ⟨req, hreq, rfl⟩ rfl hio (hsends rfl)
        (fun n hn => by cases hn) fun n _ => ?_
      rw [hr]
      exact hroute
  | dropped uid len data req hreq hnone =>
    cases c with
    | closed k => cases hnext
    | opened k => exact absurd hnone (hrouted rfl)
  | closed uid g hroute =>
    cases c with
    | closed k => cases hnext
    | opened k =>
      simp only [Conn.next, Option.ite_none_right_eq_some, Option.some.injEq] at hnext
      obtain ⟨rfl, rfl⟩ := hnext
      refine h.send (if_pos rfl) (hserved rfl hroute) rfl rfl hio (hsends rfl) (fun n _ => ?_)
        fun n hn => by cases hn
      rw [hr]
      exact Function.update_self ..
  | closedUnrouted uid hnone =>
    cases c with
    | closed k => cases hnext
    | opened k => exact absurd hnone (hrouted rfl)

/-- The invariant of every uid. -/
def ConnInv (P : Protobuf) (os : List ThreadsOut) (s : Threads) : Prop :=
  ∀ uid, ∃ c, UidInv P os s uid c

theorem ConnInv.start (P : Protobuf) (u : Unset) : ConnInv P [] (Threads.start u) := by
  intro uid
  have hserves (n : ℕ) (g : ServiceId) : Serves P [] (Threads.start u) uid n g :=
    ⟨fun _ _ => rfl, .nil⟩
  exact ⟨.closed 0, rfl, fun _ _ => rfl, fun _ hn => (by cases hn), fun _ _ => rfl,
    fun n => ⟨0, hserves n 0⟩⟩

/-- **Step lemma.** -/
theorem ConnInv.step {P : Protobuf} {os out : List ThreadsOut} {s s' : Threads}
    (h : ConnInv P os s) (hinv : ThreadsInv s) (hpop : NetLogicPop P s s' os out)
    (hsession : ConnSession (ioPopped (os ++ out))) : ConnInv P (os ++ out) s' := by
  have hsame (hio : pops .netio2Netlogic out = []) : ioPopped (os ++ out) = ioPopped os := by
    rw [ioPopped_append, ioPopped, ioPopped, hio, List.filterMap_nil, List.append_nil]
  cases hpop with
  | none hio hgame hrouter hsent =>
    intro uid
    obtain ⟨c, hc⟩ := h uid
    exact ⟨c, hc.frame (by rw [hrouter]) (by rw [hsame hio]) (fun _ => by rw [hsame hio])
      fun _ _ => by rw [hsent]⟩
  | broadcast b g rsp rspSize hio hgame hpack hrouter hsent =>
    intro uid
    obtain ⟨c, hc⟩ := h uid
    refine ⟨c, hc.frame (by rw [hrouter]) (by rw [hsame hio]) (fun _ => by rw [hsame hio])
      fun _ _ => ?_⟩
    rw [hsent, List.filterMap_append]
    exact List.append_nil _
  | message msg conn r nout acts hio hgame hroute hacts hrouter hsent =>
    subst hrouter
    have hpopped : ioPopped out = [(msg, conn)] := by
      rw [ioPopped, hio]
      rfl
    rw [ConnSession, ioPopped_append, hpopped] at hsession
    obtain ⟨c₀, c', hc₀, hnext, -⟩ := hsession.exists_step
    intro uid
    obtain ⟨c, hc⟩ := h uid
    by_cases huid : uid = msg.uid
    · subst huid
      obtain rfl : c = c₀ := Option.some.inj (hc.session.symm.trans hc₀)
      exact ⟨c', hc.message hinv hnext hpopped hroute hacts hsent⟩
    · refine ⟨c, hc.frame (hroute.sockId_of_ne huid) ?_ (fun n => ?_) fun g n => ?_⟩
      · rw [ioPopped_append, hpopped]
        exact sessionAfter_append_of_ne huid
      · have hne : ¬(msg.uid = uid ∧ conn = n) := fun hand => huid hand.1.symm
        rw [ioPopped_append, ofConn_append, hpopped]
        simp [ofConn, hne]
      · rw [hsent, List.filterMap_append]
        rcases hroute.acts_cases hinv.wired hacts with rfl | rfl | ⟨g', m, -, hm, rfl⟩
        · exact List.append_nil _
        · exact List.append_nil _
        · have hne : ¬(g' = g ∧ m.uid = uid ∧ conn = n) :=
            fun hand => huid (hand.2.1.symm.trans hm)
          simp [pendingPushes, QueNode.gameMsg, hne]

/-- **The messages of a connection reach one game service, in order.** If net IO pushes repetitions
of `TYPE_SUCCESS`, `TYPE_DATA` and `TYPE_CLOSE` for every uid, then in every interleaving of the
threads there is for each connection a game service such that no other pops any of its messages,
and what that service pops is, in order and with the same kinds, a prefix of what net IO has pushed
of the connection; it is the whole when the queues between them are empty and net logic has nothing
to push. A connect that finds no service with room, and a frame that cannot be unpacked, end the
run. The queues start empty, which `message_que_creat` does not ensure. -/
theorem connection_to_one_service {P : Protobuf} {K : Sockets} {u : Unset} {is : List ThreadsIn}
    {os : List ThreadsOut} {s : Threads}
    (hrun : (threadsMachine P K).Exec Machine.any (Threads.start u) is os s)
    (hsession : ConnSession (ioPushed os)) (uid : Uid) (n : ℕ) :
    ∃ g, (∀ g' ≠ g, delivered g' uid n os = []) ∧
      ∃ done rest, ofConn uid n (ioPushed os) = done ++ rest ∧
        List.Forall₂ (Passes P) done (delivered g uid n os) ∧
        (s.queue .netio2Netlogic = [] → s.queue (.netlogic2Game g) = [] → s.todo .netLogic = [] →
          rest = []) := by
  have hpushed : ioPushed os =
      ioPopped os ++ (s.queue .netio2Netlogic).filterMap QueNode.ioMsg := by
    rw [ioPushed, queues_fifo hrun, List.filterMap_append]
    rfl
  have hall : ThreadsInv s ∧ (ConnSession (ioPopped os) → ConnInv P os s) := by
    refine hrun.invariant_outputs
      (P := fun os s => ThreadsInv s ∧ (ConnSession (ioPopped os) → ConnInv P os s))
      ⟨.start u, fun _ => .start P u⟩ ?_
    rintro os s i s' out ⟨hinv, h⟩ - hstep
    have hs := threadsMachine_step hstep
    refine ⟨hinv.step hs, fun hsession => ?_⟩
    have hbefore : ConnSession (ioPopped os) := by
      rw [ConnSession, ioPopped_append] at hsession
      exact hsession.of_append
    exact (h hbefore).step hinv (hs.netLogicPop hinv os) hsession
  have hpopped : ConnSession (ioPopped os) := by
    rw [ConnSession, hpushed] at hsession
    exact hsession.of_append
  obtain ⟨c, hc⟩ := hall.2 hpopped uid
  obtain ⟨g, hserves⟩ := hc.served n
  have hqueue (g : ServiceId) : (netLogicSent os s).filterMap (QueNode.gameMsg g uid n) =
      delivered g uid n os ++ ((s.queue (.netlogic2Game g)).filterMap (QueNode.gameMsg g uid n) ++
        (pendingPushes (s.todo .netLogic)).filterMap (QueNode.gameMsg g uid n)) := by
    rw [netLogicSent, List.filterMap_append, ← filterMap_pushes fun _ => gameMsg_ne_none,
      queues_fifo hrun, List.filterMap_append, List.append_assoc]
    rfl
  have hsent := hserves.sent
  rw [hqueue] at hsent
  obtain ⟨done, rest, heq, hdone, hwhole⟩ := hsent.exists_prefix
  refine ⟨g, fun g' hg' => ?_, done,
    rest ++ ofConn uid n ((s.queue .netio2Netlogic).filterMap QueNode.ioMsg), ?_, hdone,
    fun hio hgame hidle => ?_⟩
  · have hnil := hserves.only g' hg'
    rw [hqueue] at hnil
    exact (List.append_eq_nil_iff.mp hnil).1
  · rw [hpushed, ofConn_append, heq, List.append_assoc]
  · rw [hio, hwhole (by rw [hgame, hidle]; rfl)]
    rfl

/-- The client 203 connects behind a crowd that fills the game service 0, and asks to start. The
game service 1 gets its connect and its request, and no other service gets anything of it. -/
theorem connection_to_one_service_run : ∃ s os,
    (threadsMachine oneByteProtobuf roomySockets).Exec Machine.any (Threads.start .zero)
      startBehindCrowd os s ∧
    ofConn 203 1 (ioPushed os) = [.success 203, .data 203 3 ['S'.toUInt8, 8, 1]] ∧
    delivered 1 203 1 os = [.success 203, .data 203 (.gameStartReq (some ⟨true⟩))] ∧
    (∀ g ≠ 1, delivered g 203 1 os = []) ∧
    List.Forall₂ (Passes oneByteProtobuf) (ofConn 203 1 (ioPushed os))
      (delivered 1 203 1 os) := by
  obtain ⟨s, os, hrun, ⟨hpushes, hpops⟩, -, hqueues, hidle⟩ := exists_start_behind_crowd
  have hpushed : ioPushed os = crowdThenStart := by
    rw [ioPushed, hpushes]
    decide +kernel
  have hsession : ConnSession (ioPushed os) := by
    rw [hpushed]
    decide +kernel
  have hconn : ofConn 203 1 (ioPushed os) = [.success 203, .data 203 3 ['S'.toUInt8, 8, 1]] := by
    rw [hpushed]
    decide +kernel
  have hdelivered : delivered 1 203 1 os =
      [.success 203, .data 203 (.gameStartReq (some ⟨true⟩))] := by
    rw [delivered, hpops]
    rfl
  obtain ⟨g, hother, done, rest, heq, hdone, hall⟩ := connection_to_one_service hrun hsession 203 1
  -- the service 1 has got something, so it is the one
  obtain rfl : g = 1 := by
    by_contra hg
    rw [hother 1 (Ne.symm hg)] at hdelivered
    cases hdelivered
  have hrest := hall (hqueues _ (by decide)) (hqueues _ (by decide)) hidle
  rw [hrest, List.append_nil] at heq
  exact ⟨s, os, hrun, hconn, hdelivered, hother, heq ▸ hdone⟩

end GameServer
