import GameServer.Game.Sessions
import GameServer.Library.Session

/-!
# The recipients of the broadcasts to a map

The recipients of a map are the first `map_player_num` entries of its list. A start appends to
the list; a close rebuilds it from the registered players of the map in slot order, started or
not. After a close the recipients are therefore the started players exactly when the started
players come first in slot order (`ClosesInOrder`).

## Main definitions

* `Phase`, `IntendedSession` : the session that a client is meant to follow.
* `Tracked.RecipientsExact`, `Announced` : lists and broadcasts reach the started players.
* `ClosesInOrder` : the condition on the slots at a close.

## Main results

* `recipients_exact` : for intended sessions the lists and the broadcasts are exact as long as
  closes are in order, and no longer.
-/

namespace GameServer

/-! ### Intended sessions -/

/-- Where a client is in its session. -/
inductive Phase
  | away | connected | loggedIn | started
deriving DecidableEq, Repr

/-- Where a message takes its client: connect, log in, start once, move any number of times,
close. Start requests that do not ask to start may be sent before the accepted one. -/
def Phase.next : Phase → GameMsg → Option Phase
  | .away, .success _ => some .connected
  | .connected, .data _ (.logReq (some _)) => some .loggedIn
  | .loggedIn, .data _ (.gameStartReq (some ⟨true⟩)) => some .started
  | .loggedIn, .data _ (.gameStartReq (some ⟨false⟩)) => some .loggedIn
  | .started, .data _ (.moveReq (some _)) => some .started
  | .started, .close _ => some .away
  | _, _ => none

/-- The phase of a client after the messages `is`, if it has kept to the session. -/
def phaseAfter (u : Uid) (is : List GameMsg) : Option Phase :=
  sessionAfter GameMsg.uid Phase.next .away u is

/-- Every client keeps to the session. -/
abbrev IntendedSession (is : List GameMsg) : Prop := IsSession GameMsg.uid Phase.next .away is

namespace Phase

variable {p p' : Phase} {uid : Uid}

theorem next_success (h : p.next (.success uid) = some p') : p = .away ∧ p' = .connected := by
  cases p <;> simp_all [Phase.next]

theorem next_close (h : p.next (.close uid) = some p') : p = .started ∧ p' = .away := by
  cases p <;> simp_all [Phase.next]

theorem next_start (h : p.next (.data uid (.gameStartReq (some ⟨true⟩))) = some p') :
    p = .loggedIn ∧ p' = .started := by
  cases p <;> simp_all [Phase.next]

/-- The other requests neither open a session nor start or end it, and their buffers are not
`NULL`. -/
theorem next_data {req : Request} (h : p.next (.data uid req) = some p')
    (hreq : (GameMsg.data uid req).startUid = none) :
    p' ≠ .away ∧ (p' = .started ↔ p = .started) := by
  unfold Phase.next at h
  split at h <;> simp_all only [GameMsg.startUid, GameMsg.data.injEq, Option.some.injEq,
    reduceCtorEq] <;> subst h <;> decide

theorem not_isNull_of_next {req : Request} (h : p.next (.data uid req) = some p') :
    ¬req.IsNull := by
  unfold Phase.next at h
  split at h <;> simp_all [Request.IsNull]

end Phase

theorem Tracked.mem_record_of_ne {t : Tracked} {msg : GameMsg} {u : Uid} (h : u ≠ msg.uid) :
    u ∈ t.record msg ↔ u ∈ t.started := by
  cases msg with
  | success uid =>
    simp only [Tracked.record]
    split_ifs
    · simp only [Finset.mem_erase, ne_eq, show u ≠ uid from h, not_false_iff, true_and]
    · rfl
  | close uid =>
    simp only [Tracked.record, Finset.mem_erase, ne_eq, show u ≠ uid from h, not_false_iff,
      true_and]
  | data uid req =>
    simp only [Tracked.record]
    split
    · rfl
    · next v hv =>
      obtain ⟨rfl, -⟩ := GameMsg.data.inj (GameMsg.mem_startUid.mp hv)
      split_ifs
      · simp only [Finset.mem_insert, show u ≠ uid from h, false_or]
      · rfl

/-- A registered client is in a session, and has started just when its session says so. -/
structure PhaseInv (t : Tracked) (is : List GameMsg) : Prop where
  present : ∀ u, t.gl.Registered u → phaseAfter u is ≠ some .away
  started_iff : ∀ u, t.gl.Registered u → (u ∈ t.started ↔ phaseAfter u is = some .started)

namespace PhaseInv

variable {t t' : Tracked} {is : List GameMsg} {msg : GameMsg} {out : List Broadcast}

theorem init (heap : MapId → SlotId → Player) : PhaseInv (Tracked.init heap) [] where
  present u hu := by simp [Tracked.init, GameLogic.Registered, gameLogicCreat] at hu
  started_iff u hu := by simp [Tracked.init, GameLogic.Registered, gameLogicCreat] at hu

/-- Intended messages are orderly. -/
theorem orderly (h : PhaseInv t is) (hses : IntendedSession (is ++ [msg])) : Orderly t msg := by
  obtain ⟨p, p', hp, hnext, -⟩ := hses.exists_step
  constructor
  · intro uid huid hreg
    obtain rfl := GameMsg.mem_startUid.mp huid
    obtain ⟨rfl, -⟩ := Phase.next_start hnext
    rw [h.started_iff uid hreg, show phaseAfter uid is = some .loggedIn from hp]
    simp only [Option.some.injEq, reduceCtorEq, not_false_iff]
  · intro uid huid hreg
    obtain rfl := GameMsg.mem_closeUid.mp huid
    obtain ⟨rfl, -⟩ := Phase.next_close hnext
    exact (h.started_iff uid hreg).mpr hp

/-- **Step lemma.** -/
theorem step (hinv : SessionInv t) (h : PhaseInv t is) (hses : IntendedSession (is ++ [msg]))
    (hstep : sessionMachine.step t msg = .ok (t', out)) : PhaseInv t' (is ++ [msg]) := by
  obtain ⟨hgl, hrecord⟩ := sessionMachine_step_eq_ok.mp hstep
  have hgl := disposeQueueEvent_step hgl
  obtain ⟨p, p', hp, hnext, hp'⟩ : ∃ p p', phaseAfter msg.uid is = some p ∧
      p.next msg = some p' ∧ phaseAfter msg.uid (is ++ [msg]) = some p' := hses.exists_step
  -- The client of the message; every other client keeps its entry, its record and its phase.
  have hself (hreg : t'.gl.Registered msg.uid) : p' ≠ .away ∧
      (msg.uid ∈ t'.started ↔ p' = .started) := by
    cases msg with
    | success uid =>
      obtain ⟨rfl, rfl⟩ := Phase.next_success hnext
      have hnot : uid ∉ t.started := fun hu => h.present uid (hinv.registered uid hu) hp
      refine ⟨by decide, iff_of_false ?_ (by decide)⟩
      rw [hrecord]
      simp only [Tracked.record, GameMsg.uid_success]
      split_ifs
      · exact fun hu => hnot (Finset.mem_of_mem_erase hu)
      · exact hnot
    | close uid => exact absurd hreg hgl.not_registered_of_close
    | data uid req =>
      have hreg' : t.gl.Registered uid := by
        simpa only [GameLogic.Registered, hgl.entry_of_data, GameMsg.uid_data] using hreg
      cases hs : (GameMsg.data uid req).startUid with
      | none =>
        obtain ⟨haway, hiff⟩ := Phase.next_data hnext hs
        refine ⟨haway, ?_⟩
        have hold := h.started_iff uid hreg'
        rw [show phaseAfter uid is = some p from hp, Option.some.injEq] at hold
        rw [hrecord, hiff]
        simpa only [Tracked.record, hs, GameMsg.uid_data] using hold
      | some v =>
        obtain ⟨rfl, rfl⟩ := GameMsg.data.inj (GameMsg.mem_startUid.mp hs)
        obtain ⟨rfl, rfl⟩ := Phase.next_start hnext
        refine ⟨by decide, iff_of_true ?_ rfl⟩
        rw [hrecord]
        simp only [Tracked.record, hs, if_pos hreg', GameMsg.uid_data, Finset.mem_insert_self]
  have hother (u : Uid) (hne : u ≠ msg.uid) (hreg : t'.gl.Registered u) : t.gl.Registered u := by
    simpa only [GameLogic.Registered, hgl.entry_of_ne hne] using hreg
  constructor
  · intro u hu
    by_cases hne : u = msg.uid
    · subst hne
      rw [hp', ne_eq, Option.some.injEq]
      exact (hself hu).1
    · rw [phaseAfter, sessionAfter_append_of_ne hne]
      exact h.present u (hother u hne hu)
  · intro u hu
    by_cases hne : u = msg.uid
    · subst hne
      rw [hp', Option.some.injEq]
      exact (hself hu).2
    · rw [phaseAfter, sessionAfter_append_of_ne hne, hrecord, Tracked.mem_record_of_ne hne]
      exact h.started_iff u (hother u hne hu)

end PhaseInv

/-! ### The lists after a message -/

/-- The recipients of every map are its started players, without duplicates. -/
def Tracked.RecipientsExact (t : Tracked) : Prop :=
  ∀ m, (t.gl.recipients m).Nodup ∧ (t.gl.recipients m).toFinset = t.startedIn m

/-- At a close, the started players among the other players of the map come first in slot
order. -/
def ClosesInOrder (t : Tracked) (msg : GameMsg) : Prop :=
  ∀ uid ∈ msg.closeUid, t.gl.Registered uid →
    (others (t.gl.mapPlayerSocketUid (t.gl.mapOf uid)) uid
      (List.finRange maxPlayerEachMap)).Pairwise fun v w => w ∈ t.started → v ∈ t.started

instance (t : Tracked) (msg : GameMsg) : Decidable (ClosesInOrder t msg) :=
  Option.decidableForallMem _

/-- The other players of a map are its registered players but one. -/
theorem TableInv.mem_others {gl : GameLogic} (h : TableInv gl) {m : MapId} {uid u : Uid} :
    u ∈ others (gl.mapPlayerSocketUid m) uid (List.finRange maxPlayerEachMap) ↔
      gl.Registered u ∧ gl.mapOf u = m ∧ u ≠ uid := by
  rw [GameServer.mem_others]
  constructor
  · rintro ⟨i, -, hi, hne⟩
    have hentry := h.entry_of_slot m i u hi
    simp only [GameLogic.Registered, GameLogic.mapOf, hentry, true_and]
    exact hne
  · rintro ⟨hreg, rfl, hne⟩
    exact ⟨gl.slotOf u, List.mem_finRange _, h.slot_of_entry u hreg, hne⟩

theorem TableInv.nodup_others {gl : GameLogic} (h : TableInv gl) (m : MapId) (uid : Uid) :
    (others (gl.mapPlayerSocketUid m) uid (List.finRange maxPlayerEachMap)).Nodup := by
  refine List.Nodup.filterMap (fun i j u hi hj => ?_) (List.nodup_finRange _)
  obtain ⟨hi, -⟩ := Option.filter_eq_some_iff.mp (Option.mem_def.mp hi)
  obtain ⟨hj, -⟩ := Option.filter_eq_some_iff.mp (Option.mem_def.mp hj)
  have hentry := (h.entry_of_slot m i u hi).symm.trans (h.entry_of_slot m j u hj)
  exact (PlayerId.mk.inj hentry).2.2

namespace GameLogic

/-- The other registered players of the map of `uid`, in slot order. -/
def neighbours (gl : GameLogic) (uid : Uid) : List Uid :=
  others (gl.mapPlayerSocketUid (gl.mapOf uid)) uid (List.finRange maxPlayerEachMap)

/-- The old entries behind the rebuilt front of the list of the map of `uid` that its counter
leaves in use when `uid` is removed. -/
def staleEntries (gl : GameLogic) (uid : Uid) : List Uid :=
  ((gl.mapUidList (gl.mapOf uid)).toList.drop (gl.neighbours uid).length).take
    ((gl.mapPlayerNum (gl.mapOf uid) - 1).toNat - (gl.neighbours uid).length)

theorem staleEntries_eq_nil (gl : GameLogic) {uid : Uid}
    (hnum : (gl.mapPlayerNum (gl.mapOf uid) - 1).toNat ≤ (gl.neighbours uid).length) :
    gl.staleEntries uid = [] := by
  rw [staleEntries, Nat.sub_eq_zero_of_le hnum, List.take_zero]

/-- A start appends to the recipients of its map. -/
theorem recipients_start (gl : GameLogic) {uid : Uid}
    (hpos : 0 ≤ gl.mapPlayerNum (gl.mapOf uid))
    (hlt : gl.mapPlayerNum (gl.mapOf uid) < maxPlayerEachMap) (m : MapId) :
    (gl.start uid).recipients m =
      if m = gl.mapOf uid then gl.recipients m ++ [uid] else gl.recipients m := by
  simp only [recipients, start, setList_mapPlayerNum, setNum_mapPlayerNum, setList_mapUidList]
  split_ifs with hm
  · subst hm
    have hnum : (gl.mapPlayerNum (gl.mapOf uid) + 1).toNat =
        (gl.mapPlayerNum (gl.mapOf uid)).toNat + 1 := by omega
    have hlen : (gl.mapPlayerNum (gl.mapOf uid)).toNat <
        (gl.mapUidList (gl.mapOf uid)).toList.length := by
      rw [Vector.length_toList]
      omega
    rw [Function.update_self, Function.update_self, hnum, Vector.toList_setIfInBounds,
      List.take_set_succ _ hlen]
  · rw [Function.update_of_ne hm, Function.update_of_ne hm, setNum_mapUidList]

/-- A removal leaves the other players of the map, then the stale entries, as its recipients. -/
theorem recipients_unregister (gl : GameLogic) {uid : Uid} {l : Vector Uid maxPlayerEachMap}
    (hl : gl.IsRebuilt uid l) (m : MapId) :
    ((gl.setList (gl.mapOf uid) l).unregister uid).recipients m =
      if m = gl.mapOf uid then
        (gl.neighbours uid).take (gl.mapPlayerNum (gl.mapOf uid) - 1).toNat ++ gl.staleEntries uid
      else gl.recipients m := by
  have hnum : ((gl.setList (gl.mapOf uid) l).unregister uid).mapPlayerNum =
      Function.update gl.mapPlayerNum (gl.mapOf uid) (gl.mapPlayerNum (gl.mapOf uid) - 1) := rfl
  have hlist : ((gl.setList (gl.mapOf uid) l).unregister uid).mapUidList =
      Function.update gl.mapUidList (gl.mapOf uid) l := rfl
  have hl' : l.toList = gl.neighbours uid ++
      (gl.mapUidList (gl.mapOf uid)).toList.drop (gl.neighbours uid).length := hl
  simp only [recipients, hnum, hlist]
  split_ifs with hm
  · subst hm
    rw [Function.update_self, Function.update_self, hl', List.take_append]
    rfl
  · rw [Function.update_of_ne hm, Function.update_of_ne hm]

end GameLogic

namespace Tracked

variable {t : Tracked} {uid : Uid}

/-- A start appends to the recipients of its map. -/
theorem recipients_afterStart (hpos : 0 ≤ t.gl.mapPlayerNum (t.gl.mapOf uid))
    (hlt : t.gl.mapPlayerNum (t.gl.mapOf uid) < maxPlayerEachMap) (m : MapId) :
    (t.afterStart uid).gl.recipients m =
      if m = t.gl.mapOf uid then t.gl.recipients m ++ [uid] else t.gl.recipients m :=
  t.gl.recipients_start hpos hlt m

/-- A close leaves a prefix of the other players as the recipients of its map. -/
theorem recipients_afterClose {l : Vector Uid maxPlayerEachMap} (hl : t.gl.IsRebuilt uid l)
    (hnum : (t.gl.mapPlayerNum (t.gl.mapOf uid) - 1).toNat ≤ (t.gl.neighbours uid).length)
    (m : MapId) :
    (t.afterClose uid l).gl.recipients m =
      if m = t.gl.mapOf uid then
        (t.gl.neighbours uid).take (t.gl.mapPlayerNum (t.gl.mapOf uid) - 1).toNat
      else t.gl.recipients m := by
  have hclose := t.gl.recipients_unregister hl m
  rwa [t.gl.staleEntries_eq_nil hnum, List.append_nil] at hclose

end Tracked

/-- The started players among the others of a map are its started players but the leaver. -/
theorem SessionInv.toFinset_filter_others {t : Tracked} (h : SessionInv t) (m : MapId) (uid : Uid) :
    ((others (t.gl.mapPlayerSocketUid m) uid (List.finRange maxPlayerEachMap)).filter
      (· ∈ t.started)).toFinset = (t.startedIn m).erase uid := by
  ext u
  simp only [List.mem_toFinset, List.mem_filter, h.tables.mem_others, decide_eq_true_eq,
    Finset.mem_erase, Tracked.mem_startedIn]
  constructor
  · rintro ⟨⟨hreg, hmap, hne⟩, hstart⟩
    exact ⟨hne, hstart, hreg, hmap⟩
  · rintro ⟨hne, hstart, hreg, hmap⟩
    exact ⟨⟨hreg, hmap, hne⟩, hstart⟩

theorem SessionInv.countP_others {t : Tracked} (h : SessionInv t) (m : MapId) (uid : Uid) :
    (others (t.gl.mapPlayerSocketUid m) uid (List.finRange maxPlayerEachMap)).countP
      (· ∈ t.started) = ((t.startedIn m).erase uid).card := by
  have hnodup := (h.tables.nodup_others m uid).filter (fun u => decide (u ∈ t.started))
  rw [List.countP_eq_length_filter, ← List.toFinset_card_of_nodup hnodup,
    h.toFinset_filter_others]

/-- **Step lemma.** From exact lists an orderly message leads to exact lists just when it is no
close out of order. -/
theorem recipientsExact_step_iff {t t' : Tracked} {msg : GameMsg} {out : List Broadcast}
    (hinv : SessionInv t) (hcount : CounterExact t) (h : t.RecipientsExact)
    (hord : Orderly t msg) (hstep : sessionMachine.step t msg = .ok (t', out)) :
    t'.RecipientsExact ↔ ClosesInOrder t msg := by
  cases hinv.cases_step hstep with
  | quiet _ hrem hstarted hnum hlist hentry =>
    refine iff_of_true (fun m => ?_) fun uid huid hreg => absurd ⟨huid, hreg⟩ (hrem uid)
    rw [Tracked.startedIn_of_quiet hinv hstarted hentry]
    simp only [GameLogic.recipients, hnum, hlist]
    exact h m
  | start uid hmsg hreg hpos hlt ht =>
    subst hmsg ht
    refine iff_of_true (fun m => ?_) fun v hv => by cases hv
    have hm := h m
    rw [Tracked.recipients_afterStart hpos hlt, Tracked.startedIn_afterStart hreg]
    split_ifs with hmap
    · subst hmap
      have hnew : uid ∉ t.gl.recipients (t.gl.mapOf uid) := by
        rw [← List.mem_toFinset, hm.2, Tracked.mem_startedIn_mapOf hreg]
        exact hord.1 uid rfl hreg
      refine ⟨List.nodup_append.mpr ⟨hm.1, List.nodup_singleton uid, ?_⟩, ?_⟩
      · rintro u hu v hv rfl
        exact hnew (List.mem_singleton.mp hv ▸ hu)
      · ext u
        simp only [List.mem_toFinset, List.mem_append, List.mem_singleton, Finset.mem_insert,
          ← hm.2, or_comm]
    · exact hm
  | close uid l hmsg hreg hl ht =>
    subst hmsg ht
    have hstarted : uid ∈ t.startedIn (t.gl.mapOf uid) :=
      (Tracked.mem_startedIn_mapOf hreg).mpr (hord.2 uid rfl hreg)
    -- The counter after the close is the number of started players among the others.
    have hcountP := hinv.countP_others (t.gl.mapOf uid) uid
    have hnum : (t.gl.mapPlayerNum (t.gl.mapOf uid) - 1).toNat =
        (others (t.gl.mapPlayerSocketUid (t.gl.mapOf uid)) uid
          (List.finRange maxPlayerEachMap)).countP (· ∈ t.started) := by
      rw [hcountP, Finset.card_erase_of_mem hstarted, hcount]
      omega
    have hrec := Tracked.recipients_afterClose hl (hnum ▸ List.countP_le_length)
    simp only [GameLogic.neighbours, hnum] at hrec
    have hcond : ClosesInOrder t (.close uid) ↔
        (others (t.gl.mapPlayerSocketUid (t.gl.mapOf uid)) uid
          (List.finRange maxPlayerEachMap)).Pairwise
            fun v w => decide (w ∈ t.started) → decide (v ∈ t.started) := by
      simp [ClosesInOrder, GameMsg.closeUid, hreg]
    rw [hcond]
    constructor
    · intro hexact
      refine List.forall_take_countP_iff.mp fun u hu => ?_
      have hm := (hexact (t.gl.mapOf uid)).2
      rw [hrec, if_pos rfl, Tracked.startedIn_afterClose] at hm
      have hmem := List.mem_toFinset.mpr hu
      rw [hm, Finset.mem_erase, Tracked.mem_startedIn] at hmem
      exact decide_eq_true hmem.2.1
    · intro hpair m
      rw [hrec, Tracked.startedIn_afterClose]
      split_ifs with hmap
      · rw [List.take_countP_eq_filter hpair, hinv.toFinset_filter_others, hmap]
        exact ⟨(hinv.tables.nodup_others _ _).filter _, rfl⟩
      · have hnot : uid ∉ t.startedIn m :=
          fun hu => hmap (Tracked.mem_startedIn.mp hu).2.2.symm
        rw [Finset.erase_eq_of_notMem hnot]
        exact h m

/-! ### The broadcasts -/

/-- The recipients of the broadcast are the uids of `s`, each once. -/
def Broadcast.Names (b : Broadcast) (s : Finset Uid) : Prop :=
  b.broadcastPlayerNum = s.card ∧
    ∃ l : List Uid, b.uidList = l.map Uid.toInt ∧ l.Nodup ∧ l.toFinset = s

/-- The broadcasts of a message reach the started players of the map of its client: those of a
newcomer or leaver the others, those of a move all. The `ENEMY_MSG` replies to a login are not
broadcasts to the map; they go to the client that logged in. -/
def Announced (t : Tracked) (msg : GameMsg) (out : List Broadcast) : Prop :=
  ∀ b ∈ out,
    (b.protoType = .newEnemy ∨ b.protoType = .enemyLeave →
      b.Names ((t.startedIn (t.gl.mapOf msg.uid)).erase msg.uid)) ∧
    (b.protoType = .enemyMsg → (∀ uid data, msg ≠ .data uid (.logReq data)) →
      b.Names (t.startedIn (t.gl.mapOf msg.uid)))

theorem toMap_names {t : Tracked} (hcount : CounterExact t) (h : t.RecipientsExact) (m : MapId)
    (ty : RspType) (rsp : Rsp) : (toMap t.gl m ty rsp).Names (t.startedIn m) :=
  ⟨hcount m, t.gl.recipients m, rfl, h m⟩

/-- Where the lists before and after a message are exact, so are its broadcasts. -/
theorem announced_of_exact {t t' : Tracked} {msg : GameMsg} {out : List Broadcast}
    (hinv : SessionInv t) (hcount : CounterExact t) (h : t.RecipientsExact) (hord : Orderly t msg)
    (hcount' : CounterExact t') (h' : t'.RecipientsExact)
    (hstep : sessionMachine.step t msg = .ok (t', out)) : Announced t msg out := by
  have herase (uid : Uid) (hmsg : msg = .close uid) (hreg : t.gl.Registered uid) :
      (t.startedIn (t.gl.mapOf uid)).erase uid = t'.startedIn (t.gl.mapOf uid) := by
    subst hmsg
    cases hinv.cases_step hstep with
    | quiet _ hrem => exact absurd ⟨rfl, hreg⟩ (hrem uid)
    | start v hmsg => cases hmsg
    | close v l hmsg _ _ ht =>
      cases hmsg
      rw [ht, Tracked.startedIn_afterClose]
  have hnames' := toMap_names hcount' h'
  obtain ⟨gl', started'⟩ := t'
  have hgl := disposeQueueEvent_step (sessionMachine_step_eq_ok.mp hstep).1
  intro b hb
  cases hgl with
  | success => exact absurd hb List.not_mem_nil
  | ignored => exact absurd hb List.not_mem_nil
  | login uid req =>
    refine ⟨fun hty => ?_, fun _ hlogin => absurd rfl (hlogin uid (some req))⟩
    simp only [loginReplies, List.mem_append, List.mem_singleton, List.mem_map] at hb
    rcases hb with (rfl | ⟨e, -, rfl⟩) | rfl <;> simp [enemyMsgTo] at hty
  | start uid hreg =>
    rcases List.mem_pair.mp hb with rfl | rfl
    · have hnot : uid ∉ t.startedIn (t.gl.mapOf uid) :=
        mt (Tracked.mem_startedIn_mapOf hreg).mp (hord.1 uid rfl hreg)
      refine ⟨fun _ => ?_, fun hty => by cases hty⟩
      rw [GameMsg.uid_data, Finset.erase_eq_of_notMem hnot]
      exact toMap_names hcount h _ _ _
    · exact ⟨fun hty => by simp at hty, fun hty => by cases hty⟩
  | move uid req =>
    obtain rfl := List.mem_singleton.mp hb
    exact ⟨fun hty => by simp [toMap] at hty, fun _ _ => toMap_names hcount h _ _ _⟩
  | leave uid data =>
    obtain rfl := List.mem_singleton.mp hb
    exact ⟨fun hty => by simp at hty, fun hty => by cases hty⟩
  | close uid l hreg =>
    obtain rfl := List.mem_singleton.mp hb
    refine ⟨fun _ => ?_, fun hty => by cases hty⟩
    rw [GameMsg.uid_close, herase uid rfl hreg]
    exact hnames' _ _ _

/-- Intended messages are handled: the lists and slots that they use are there. -/
theorem exists_step_of_intended {t : Tracked} {is : List GameMsg} {msg : GameMsg}
    (hinv : SessionInv t) (hcount : CounterExact t) (h : t.RecipientsExact)
    (hphase : PhaseInv t is) (hses : IntendedSession (is ++ [msg])) :
    ∃ t' out, sessionMachine.step t msg = .ok (t', out) := by
  cases hstep : sessionMachine.step t msg with
  | ok p => exact ⟨p.1, p.2, rfl⟩
  | error e =>
    have hord := hphase.orderly hses
    have hguard : Guarded t msg := by
      intro uid huid hreg
      refine ⟨hord.1 uid huid hreg, ?_⟩
      rw [hcount]
      omega
    obtain ⟨p, p', -, hnext, -⟩ := hses.exists_step
    cases disposeQueueEvent_fault (sessionMachine_step_eq_error.mp hstep) with
    | overrun hover =>
      exact absurd hover (not_overruns_of_guarded hinv (fun m => (hcount m).le) hguard)
    | nullMessage _ hnull => exact absurd hnull (Phase.not_isNull_of_next hnext)
    | @nullEnemy uid e _ _ he hnull =>
      have hmem := List.mem_toFinset.mpr he
      rw [(h _).2, Tracked.mem_startedIn] at hmem
      exact absurd hmem.2.1 hnull

/-- **The recipients are the started players.** While the clients keep to the intended session
and closes are in order, the recipients of every map are its started players, each once, and the
next message is handled; it leads to exact lists and sends exact broadcasts just when it is no
close out of order. -/
theorem recipients_exact {heap : MapId → SlotId → Player} {is : List GameMsg}
    {os : List Broadcast} {t : Tracked} (hses : IntendedSession is)
    (hrun : sessionMachine.Exec ClosesInOrder (Tracked.init heap) is os t) :
    t.RecipientsExact ∧ ∀ msg, IntendedSession (is ++ [msg]) →
      ∃ t' out, sessionMachine.step t msg = .ok (t', out) ∧
        ((t'.RecipientsExact ∧ Announced t msg out) ↔ ClosesInOrder t msg) := by
  have hall : SessionInv t ∧ CounterExact t ∧ t.RecipientsExact ∧ PhaseInv t is := by
    refine hrun.invariant_inputs (P := fun is t => IntendedSession is →
      SessionInv t ∧ CounterExact t ∧ t.RecipientsExact ∧ PhaseInv t is) ?_ ?_ hses
    · intro _
      exact ⟨SessionInv.init heap, counterExact_init heap, fun _ => ⟨List.nodup_nil, rfl⟩,
        PhaseInv.init heap⟩
    · intro is s msg s' out ih hclose hstep hses
      obtain ⟨hinv, hcount, hexact, hphase⟩ := ih hses.of_append
      have hord := hphase.orderly hses
      exact ⟨hinv.step hstep, (counterExact_step_iff hinv hcount hstep).mpr hord,
        (recipientsExact_step_iff hinv hcount hexact hord hstep).mpr hclose,
        hphase.step hinv hses hstep⟩
  obtain ⟨hinv, hcount, hexact, hphase⟩ := hall
  refine ⟨hexact, fun msg hses' => ?_⟩
  obtain ⟨t', out, hstep⟩ := exists_step_of_intended hinv hcount hexact hphase hses'
  have hord := hphase.orderly hses'
  have hcount' := (counterExact_step_iff hinv hcount hstep).mpr hord
  have hiff := recipientsExact_step_iff hinv hcount hexact hord hstep
  refine ⟨t', out, hstep, fun h => hiff.mp h.1, fun hclose => ?_⟩
  have hexact' := hiff.mpr hclose
  exact ⟨hexact', announced_of_exact hinv hcount hexact hord hcount' hexact' hstep⟩

/-- Three clients start in slot order, the first leaves, and the second moves. -/
theorem recipients_exact_run : ∃ t os, sessionMachine.Exec ClosesInOrder (Tracked.init zeroHeap)
    [.success 3, .success 4, .success 5, .data 3 (.logReq (some ⟨[]⟩)),
      .data 4 (.logReq (some ⟨[]⟩)), .data 3 (.gameStartReq (some ⟨true⟩)),
      .data 4 (.gameStartReq (some ⟨true⟩)), .close 3, .data 4 (.moveReq (some ⟨2⟩))] os t ∧
    t.gl.recipients 0 = [4] ∧ t.RecipientsExact := by
  have hses : IntendedSession [.success 3, .success 4, .success 5, .data 3 (.logReq (some ⟨[]⟩)),
      .data 4 (.logReq (some ⟨[]⟩)), .data 3 (.gameStartReq (some ⟨true⟩)),
      .data 4 (.gameStartReq (some ⟨true⟩)), .close 3, .data 4 (.moveReq (some ⟨2⟩))] := by
    decide
  have hrun : (sessionMachine.run ClosesInOrder (Tracked.init zeroHeap)
      [.success 3, .success 4, .success 5, .data 3 (.logReq (some ⟨[]⟩)),
        .data 4 (.logReq (some ⟨[]⟩)), .data 3 (.gameStartReq (some ⟨true⟩)),
        .data 4 (.gameStartReq (some ⟨true⟩)), .close 3, .data 4 (.moveReq (some ⟨2⟩))]).map
      (fun p => p.1.gl.recipients 0) = some [4] := by
    decide +kernel
  obtain ⟨t, os, hrun, hrec⟩ := sessionMachine.exec_of_run_map hrun
  exact ⟨t, os, hrun, hrec, (recipients_exact hses hrun).1⟩

/-- Clients 3, 4 and 5 log in, 3 and 5 start, and 3 leaves: the only recipient left is 4, which
has not started, and the started player 5 is missing. -/
theorem recipients_not_started : ∃ t os,
    IntendedSession [.success 3, .success 4, .success 5, .data 3 (.logReq (some ⟨[]⟩)),
      .data 4 (.logReq (some ⟨[]⟩)), .data 5 (.logReq (some ⟨[]⟩)),
      .data 3 (.gameStartReq (some ⟨true⟩)), .data 5 (.gameStartReq (some ⟨true⟩)), .close 3] ∧
    sessionMachine.Exec Machine.any (Tracked.init zeroHeap)
      [.success 3, .success 4, .success 5, .data 3 (.logReq (some ⟨[]⟩)),
        .data 4 (.logReq (some ⟨[]⟩)), .data 5 (.logReq (some ⟨[]⟩)),
        .data 3 (.gameStartReq (some ⟨true⟩)), .data 5 (.gameStartReq (some ⟨true⟩)), .close 3]
      os t ∧
    t.gl.recipients 0 = [4] ∧ t.startedIn 0 = {5} := by
  have hrun : (sessionMachine.run Machine.any (Tracked.init zeroHeap)
      [.success 3, .success 4, .success 5, .data 3 (.logReq (some ⟨[]⟩)),
        .data 4 (.logReq (some ⟨[]⟩)), .data 5 (.logReq (some ⟨[]⟩)),
        .data 3 (.gameStartReq (some ⟨true⟩)), .data 5 (.gameStartReq (some ⟨true⟩)),
        .close 3]).map (fun p => (p.1.gl.recipients 0, p.1.startedIn 0)) = some ([4], {5}) := by
    decide +kernel
  obtain ⟨t, os, hrun, hobs⟩ := sessionMachine.exec_of_run_map hrun
  exact ⟨t, os, by decide, hrun, (Prod.mk.inj hobs).1, (Prod.mk.inj hobs).2⟩

end GameServer
