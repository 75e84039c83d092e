import GameServer.Library.Session
import GameServer.NetIo.Slots

/-!
# What net IO reports of its connections

The history of net IO holds the messages that it pushes to net logic and the closes that net logic
has ordered. Id by id it is compared with the session of a connection: a `TYPE_SUCCESS`, frames,
and a `TYPE_CLOSE` unless net logic has ordered the close.

## Main definitions

* `Life`, `lifeAfter` : the session of an id in the history of net IO.
* `ReportsFollow` : every id has kept to its session, which is open while the connection is.
* `WritesSucceed` : no write fails but for `EINTR` and `EAGAIN`.

## Main results

* `SlotStep.reportsFollow` : the step lemma.
* `reports_follow_connections` : the reports of each id follow its connections.
-/

namespace GameServer

/-! ### The session of an id -/

/-- The session of an id in the history of net IO. -/
inductive Life
  | closed | opened
deriving DecidableEq, Repr

/-- `TYPE_SUCCESS` opens, `TYPE_CLOSE` closes and `TYPE_DATA` comes in between; a close that net
logic has ordered is not reported. -/
def Life.next : Life → NetIoOut → Option Life
  | .closed, .push (.success _) => some .opened
  | .opened, .push (.data _ _ _) => some .opened
  | .opened, .push (.close _) => some .closed
  | _, .order _ => some .closed
  | _, _ => none

/-- The id that an entry of the history is about. -/
def NetIoOut.uid : NetIoOut → Uid
  | .push msg => msg.uid
  | .order u => u

/-- The session of an id after a history of net IO. -/
def lifeAfter (u : Uid) (os : List NetIoOut) : Option Life :=
  sessionAfter NetIoOut.uid Life.next .closed u os

/-- The history of every id has kept to its session, which is open exactly while the connection
is. -/
def ReportsFollow (ss : SocketServer) (os : List NetIoOut) : Prop :=
  ∀ u, ∃ life, lifeAfter u os = some life ∧ (life = .opened ↔ ss.Open u)

/-- The step lemma: an entry that continues the session of its id. -/
theorem ReportsFollow.append {ss ss' : SocketServer} {os : List NetIoOut} {a : NetIoOut}
    (h : ReportsFollow ss os) (hother : ∀ v, v ≠ a.uid → (ss'.Open v ↔ ss.Open v))
    (hself : ∀ life, (life = .opened ↔ ss.Open a.uid) →
      ∃ life', Life.next life a = some life' ∧ (life' = .opened ↔ ss'.Open a.uid)) :
    ReportsFollow ss' (os ++ [a]) := by
  intro v
  by_cases hv : v = a.uid
  · subst hv
    obtain ⟨life, hlife, hopen⟩ := h a.uid
    obtain ⟨life', hnext, hopen'⟩ := hself life hopen
    exact ⟨life', sessionAfter_append_eq_some hlife hnext, hopen'⟩
  · obtain ⟨life, hlife, hopen⟩ := h v
    refine ⟨life, (sessionAfter_append_of_ne hv).trans hlife, ?_⟩
    rw [hother v hv]
    exact hopen

theorem Life.eq_closed {life : Life} (h : life ≠ .opened) : life = .closed := by
  cases life with
  | closed => rfl
  | opened => exact absurd rfl h

/-- Steps without a failing write keep the reports in line with the connections. -/
theorem SlotStep.reportsFollow {ends fails : Uid → Prop} {ss ss' : SocketServer}
    {os : List NetIoOut} {out : List IoMsg} (hs : SlotStep ends fails ss ss' out)
    (hfail : ∀ u, ss.Open u → ¬fails u) (h : ReportsFollow ss os) :
    ReportsFollow ss' (os ++ out.map .push) := by
  cases hs with
  | quiet hsame =>
    rw [List.map_nil, List.append_nil]
    intro u
    obtain ⟨life, hlife, hopen⟩ := h u
    exact ⟨life, hlife, hopen.trans (hsame u).symm⟩
  | frame u data hopen hsame =>
    refine h.append (fun v _ => hsame v) fun life hlife => ?_
    obtain rfl : life = .opened := hlife.mpr hopen
    exact ⟨.opened, rfl, hlife.trans (hsame _).symm⟩
  | opened u hnew hset =>
    refine h.append (fun v hv => (hset v).trans (or_iff_left hv)) fun life hlife => ?_
    obtain rfl := Life.eq_closed (mt hlife.mp hnew)
    exact ⟨.opened, rfl, iff_of_true rfl ((hset u).mpr (Or.inr rfl))⟩
  | closed u hend hopen hset =>
    refine h.append (fun v hv => (hset v).trans (and_iff_left hv)) fun life hlife => ?_
    obtain rfl : life = .opened := hlife.mpr hopen
    exact ⟨.closed, rfl, iff_of_false (by decide) fun hu => ((hset u).mp hu).2 rfl⟩
  | lost u hf hopen hset => exact absurd hf (hfail u hopen)

/-- A close that net logic has ordered. -/
theorem ReportsFollow.order {ss : SocketServer} {os : List NetIoOut} (h : ReportsFollow ss os)
    (u : Uid) : ReportsFollow (closeFd ss u).1 (os ++ [.order u]) := by
  refine h.append (fun v hv => (closeFd_open_iff ss u v).trans (and_iff_left hv)) fun life _ => ?_
  refine ⟨.closed, by cases life <;> rfl, iff_of_false (by decide) fun hu => ?_⟩
  exact ((closeFd_open_iff ss u u).mp hu).2 rfl

/-! ### The service -/

/-- No write to a client fails but for `EINTR` and `EAGAIN`, and net logic orders closes by
`TYPE_EVENT_SERVICE_FULL` only. -/
def WritesSucceed (ss : SocketServer) : NetIoIn → Prop
  | .event eve oc => ss.Open eve.sP → eve.read = false → eve.write = true → .fail ∉ oc.writes
  | .node (.broadcast _ _ _) writes => .fail ∉ writes
  | .node (.serviceFull _) _ => True
  | .node (.playerError _) _ => False

instance (ss : SocketServer) (i : NetIoIn) : Decidable (WritesSucceed ss i) := by
  unfold WritesSucceed
  split <;> infer_instance

/-- **Reports.** After a run in which no write to a client fails, the history of every id, the
messages pushed for it and the closes that net logic has ordered, has kept to its session, which
is open exactly while the connection is: every connection that ended was reported once under the
id it had, unless net logic ordered its close. -/
theorem reports_follow_connections {ss₀ ss : SocketServer} {listenFd netlogicFd : ℤ}
    {is : List NetIoIn} {os : List NetIoOut}
    (hstart : networkIoServiceStart listenFd netlogicFd = .ok ss₀)
    (hrun : netIoMachine.Exec WritesSucceed ss₀ is os ss) :
    ∀ u, ∃ life, lifeAfter u os = some life ∧
      (life = .opened ↔ (ss.socketPool u).type = .connectAdd) := by
  have hnot := networkIoServiceStart_not_open hstart
  refine (hrun.invariant_outputs (P := fun os ss => IdInv ss ∧ ReportsFollow ss os) ?_ ?_).2
  · refine ⟨fun u hu => absurd hu (hnot u), fun u => ⟨.closed, rfl, ?_⟩⟩
    exact iff_of_false (by decide) (hnot u)
  · rintro os ss i ss' o ⟨hid, hfollow⟩ hok hstep
    cases i with
    | event eve oc =>
      obtain ⟨⟨ss₁, out⟩, hevent, h⟩ := Except.bind_eq_ok_iff.mp hstep
      obtain ⟨rfl, rfl⟩ := Prod.mk.inj (Except.ok.inj h)
      obtain ⟨hid', hslot⟩ := disposeEvent_step hid hevent
      have hsucceeds (u : Uid) (hu : ss.Open u) : ¬(u = eve.sP ∧ eve.read = false ∧
          eve.write = true ∧ .fail ∈ oc.writes) := by
        rintro ⟨rfl, hread, hwrite, hfail⟩
        exact hok hu hread hwrite hfail
      exact ⟨hid', hslot.reportsFollow hsucceeds hfollow⟩
    | node node writes =>
      cases node with
      | serviceFull u =>
        obtain ⟨rfl, rfl⟩ := Prod.mk.inj (Except.ok.inj hstep)
        exact ⟨closeFd_idInv hid u, hfollow.order u⟩
      | playerError u => exact hok.elim
      | broadcast size ids buf =>
        obtain ⟨⟨ss₁, out⟩, hsend, h⟩ := Except.bind_eq_ok_iff.mp hstep
        obtain ⟨rfl, rfl⟩ := Prod.mk.inj (Except.ok.inj h)
        obtain ⟨hsame, rfl⟩ := broadcastUserMsg_quiet hok hsend
        have hquiet : SlotStep (fun _ => False) (fun _ => False) ss ss₁ [] := .quiet hsame.open_iff
        exact ⟨hsame.idInv hid, hquiet.reportsFollow (fun _ _ => id) hfollow⟩

/-- A client that connects on the descriptor 9. -/
def clientConnects : NetIoIn :=
  .event ⟨1, true, false, false⟩ ⟨⟨some 9, true, true⟩, [], []⟩

/-- A client connects, receives a message, sends a frame and leaves. -/
theorem reports_follow_connections_run : ∃ ss₀ ss os,
    networkIoServiceStart 7 8 = .ok ss₀ ∧
    netIoMachine.Exec WritesSucceed ss₀ [clientConnects,
      .node (.broadcast 2 [3] [0, 105]) [.wrote 2],
      .event ⟨3, true, false, false⟩ ⟨⟨none, true, true⟩, [.data [2], .data [108, 10]], []⟩,
      .event ⟨3, true, false, false⟩ ⟨⟨none, true, true⟩, [.data []], []⟩] os ss ∧
    os = [.push (.success 3), .push (.data 3 2 [108, 10]), .push (.close 3)] ∧
    ∀ u, ∃ life, lifeAfter u os = some life ∧
      (life = .opened ↔ (ss.socketPool u).type = .connectAdd) := by
  obtain ⟨ss₀, hstart, hrun⟩ : ∃ ss₀, networkIoServiceStart 7 8 = .ok ss₀ ∧
      (netIoMachine.run WritesSucceed ss₀ [clientConnects,
        .node (.broadcast 2 [3] [0, 105]) [.wrote 2],
        .event ⟨3, true, false, false⟩ ⟨⟨none, true, true⟩, [.data [2], .data [108, 10]], []⟩,
        .event ⟨3, true, false, false⟩ ⟨⟨none, true, true⟩, [.data []], []⟩]).map Prod.snd =
      some [.push (.success 3), .push (.data 3 2 [108, 10]), .push (.close 3)] :=
    ⟨_, rfl, by rfl⟩
  obtain ⟨ss, os, hrun, hos⟩ := netIoMachine.exec_of_run_map hrun
  exact ⟨ss₀, ss, os, hstart, hrun, hos, reports_follow_connections hstart hrun⟩

/-- **A write error is reported under the wrong id.** The write to the client 3 fails: its slot is
closed, no close of 3 is ever reported, and one of 0 is, which was never open. -/
theorem write_error_misreported : ∃ ss₀ ss os,
    networkIoServiceStart 7 8 = .ok ss₀ ∧
    netIoMachine.Exec Machine.any ss₀ [clientConnects, .node (.broadcast 2 [3] [0, 105]) [.fail]]
      os ss ∧
    (ss.socketPool 3).type = .invalid ∧ os = [.push (.success 3), .push (.close 0)] ∧
    lifeAfter 3 os = some .opened ∧ lifeAfter 0 os = none := by
  obtain ⟨ss₀, hstart, hrun⟩ : ∃ ss₀, networkIoServiceStart 7 8 = .ok ss₀ ∧
      (netIoMachine.run Machine.any ss₀ [clientConnects,
        .node (.broadcast 2 [3] [0, 105]) [.fail]]).map
        (fun p => ((p.1.socketPool 3).type, p.2)) =
      some (.invalid, [.push (.success 3), .push (.close 0)]) :=
    ⟨_, rfl, by rfl⟩
  obtain ⟨ss, os, hrun, hobs⟩ := netIoMachine.exec_of_run_map hrun
  obtain ⟨htype, rfl⟩ := Prod.mk.inj hobs
  exact ⟨ss₀, ss, _, hstart, hrun, htype, rfl, rfl, rfl⟩

end GameServer
