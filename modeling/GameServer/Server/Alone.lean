import GameServer.Library.Parts
import GameServer.Server.Entries

/-!
# Each game service as if it were alone

The four game services write one `uid_2_playid` table. Each of them reads it at the uid of the
message that it handles, and for a login also at the uids in the list of the map. As long as the
messages of each uid are handled in order and no login is told of a player of another service, a
service never reads an entry of another one. It then handles its messages and sends its broadcasts
as a single game service would, whose entries are the entries that it owns.

## Main definitions

* `GameLogic.withEntries` : the tables of a service over other entries.
* `GameLogic.introduced` : the players that a login is told of.
* `handledMachine` : the services, writing down what they handle and what they send.
* `IntroducesOwn`, `HandledApart` : the condition under which the services stay apart.
* `OwnEntries`, `AloneInv` : the entries of one service, and its run.

## Main results

* `GameStep.withEntries` : a step is one over any entries that agree where it reads them.
* `services_as_if_alone` : every service is as if it were alone.
-/

namespace GameServer

/-! ### A service over other entries -/

/-- Two entries are the same as far as a service can tell: an entry that is not in use is not
read. -/
def PlayerId.Agrees (p q : PlayerId) : Prop :=
  p = q ∨ p.state = .typeInvalid ∧ q.state = .typeInvalid

namespace PlayerId.Agrees

variable {p q : PlayerId}

theorem state_eq (h : p.Agrees q) : p.state = q.state := by
  rcases h with rfl | ⟨hp, hq⟩
  · rfl
  · exact hp.trans hq.symm

theorem eq_of_using (h : p.Agrees q) (hq : q.state = .typeUsing) : p = q := by
  rcases h with rfl | ⟨-, hq'⟩
  · rfl
  · exact nomatch hq'.symm.trans hq

theorem symm (h : p.Agrees q) : q.Agrees p := h.imp Eq.symm And.symm

end PlayerId.Agrees

namespace GameLogic

/-- The tables over other entries. -/
@[simps] def withEntries (gl : GameLogic) (e : Uid → PlayerId) : GameLogic :=
  { gl with uid2Playid := e }

variable {gl : GameLogic} {e : Uid → PlayerId} {uid : Uid}

theorem registered_withEntries (h : (e uid).state = (gl.uid2Playid uid).state) :
    (gl.withEntries e).Registered uid ↔ gl.Registered uid := by
  unfold Registered
  rw [withEntries_uid2Playid, h]

theorem mapOf_withEntries (h : e uid = gl.uid2Playid uid) :
    (gl.withEntries e).mapOf uid = gl.mapOf uid :=
  congrArg PlayerId.mapid h

theorem slotOf_withEntries (h : e uid = gl.uid2Playid uid) :
    (gl.withEntries e).slotOf uid = gl.slotOf uid :=
  congrArg PlayerId.mapPlayerid h

theorem playerOf_withEntries (h : e uid = gl.uid2Playid uid) :
    (gl.withEntries e).playerOf uid = gl.playerOf uid := by
  rw [playerOf, mapOf_withEntries h, slotOf_withEntries h]
  rfl

theorem setPlayer_withEntries (h : e uid = gl.uid2Playid uid) (p : Player) :
    (gl.withEntries e).setPlayer uid p = (gl.setPlayer uid p).withEntries e := by
  rw [setPlayer, mapOf_withEntries h, slotOf_withEntries h]
  rfl

theorem enemyMsgTo_withEntries {v : Uid} (h : e v = gl.uid2Playid v) :
    enemyMsgTo (gl.withEntries e) uid v = enemyMsgTo gl uid v := by
  rw [enemyMsgTo, playerOf_withEntries h, enemyMsgTo]

theorem dropEntry_withEntries (h : e uid = gl.uid2Playid uid) :
    (gl.withEntries e).dropEntry uid = (gl.dropEntry uid).withEntries
      (Function.update e uid { gl.uid2Playid uid with state := .typeInvalid }) := by
  rw [dropEntry, mapOf_withEntries h, withEntries_uid2Playid, h]
  rfl

theorem unregister_withEntries (h : e uid = gl.uid2Playid uid) :
    (gl.withEntries e).unregister uid = (gl.unregister uid).withEntries
      (Function.update e uid { gl.uid2Playid uid with state := .typeInvalid }) := by
  rw [unregister, dropEntry_withEntries h, mapOf_withEntries h, slotOf_withEntries h,
    playerOf_withEntries h]
  rfl

/-- The players that the sender of a message is told of: those in the list of its map, when it
logs in. -/
def introduced (gl : GameLogic) : GameMsg → List Uid
  | .data uid (.logReq (some _)) =>
    if gl.Registered uid then gl.recipients (gl.mapOf uid) else []
  | _ => []

theorem introduced_login (h : gl.Registered uid) (req : LoginReq) :
    gl.introduced (.data uid (.logReq (some req))) = gl.recipients (gl.mapOf uid) :=
  if_pos h

/-- Other entries that agree with those of the tables wherever the handling of the message reads
them. -/
def AgreesAt (gl : GameLogic) (e : Uid → PlayerId) (msg : GameMsg) : Prop :=
  ∀ v, v = msg.uid ∨ v ∈ gl.introduced msg → (e v).Agrees (gl.uid2Playid v)

namespace AgreesAt

variable {msg : GameMsg}

theorem self (h : gl.AgreesAt e msg) : (e msg.uid).Agrees (gl.uid2Playid msg.uid) :=
  h _ (.inl rfl)

theorem symm (h : gl.AgreesAt e msg) : (gl.withEntries e).AgreesAt gl.uid2Playid msg := by
  have hintroduced : (gl.withEntries e).introduced msg = gl.introduced msg := by
    unfold introduced
    split
    · next uid req =>
      have huid : (e uid).Agrees (gl.uid2Playid uid) := h.self
      by_cases hreg : gl.Registered uid
      · rw [if_pos ((registered_withEntries huid.state_eq).mpr hreg), if_pos hreg,
          mapOf_withEntries (huid.eq_of_using hreg)]
        rfl
      · rw [if_neg (mt (registered_withEntries huid.state_eq).mp hreg), if_neg hreg]
    · rfl
  intro v hv
  rw [hintroduced] at hv
  exact (h v hv).symm

end AgreesAt

end GameLogic

section Append

variable {gl : GameLogic} {e : Uid → PlayerId} {uid : Uid}

/-- A registration finds the same slot whatever the entries of the other uids are. -/
theorem gameRouteAppend_withEntries (h : (e uid).Agrees (gl.uid2Playid uid)) :
    ∃ e', (gameRouteAppend (gl.withEntries e) uid).2 =
        (gameRouteAppend gl uid).2.withEntries e' ∧
      (∀ v, v ≠ uid → e' v = e v) ∧
      (e' uid).Agrees ((gameRouteAppend gl uid).2.uid2Playid uid) := by
  by_cases hfree : (gl.uid2Playid uid).state = .typeInvalid
  · have hfree' : ((gl.withEntries e).uid2Playid uid).state = .typeInvalid := h.state_eq.trans hfree
    have hmapid : gameRouteGetMapid (gl.withEntries e) = gameRouteGetMapid gl := rfl
    cases hmap : gameRouteGetMapid gl with
    | none =>
      simp only [gameRouteAppend, if_pos hfree, if_pos hfree', hmapid, hmap]
      exact ⟨e, rfl, fun _ _ => rfl, h⟩
    | some m =>
      have hslot : gameRouteGetPlayeridInMap (gl.withEntries e) m =
          (gameRouteGetPlayeridInMap gl m).map fun p => (p.1, p.2.withEntries e) := by
        simp only [gameRouteGetPlayeridInMap, Option.map_map]
        rfl
      cases hfound : gameRouteGetPlayeridInMap gl m with
      | none =>
        simp only [gameRouteAppend, if_pos hfree, if_pos hfree', hmapid, hmap, hslot, hfound,
          Option.map_none]
        exact ⟨e, rfl, fun _ _ => rfl, h⟩
      | some p =>
        obtain ⟨i, gl₁⟩ := p
        obtain ⟨-, rfl⟩ := gameRouteGetPlayeridInMap_spec hfound
        simp only [gameRouteAppend, if_pos hfree, if_pos hfree', hmapid, hmap, hslot, hfound,
          Option.map_some, GameLogic.withEntries_mapPlayerSocketUid]
        split_ifs with hnull
        · refine ⟨Function.update e uid ⟨.typeUsing, m, i⟩, rfl, fun v hv => ?_, .inl ?_⟩
          · exact Function.update_of_ne hv ..
          · simp only [Function.update_self]
        · exact ⟨e, rfl, fun _ _ => rfl, h⟩
  · have hfree' : ¬((gl.withEntries e).uid2Playid uid).state = .typeInvalid := by
      rw [GameLogic.withEntries_uid2Playid, h.state_eq]
      exact hfree
    simp only [gameRouteAppend, if_neg hfree, if_neg hfree']
    exact ⟨e, rfl, fun _ _ => rfl, h⟩

/-- A removal clears the same slot whatever the entries of the other uids are. -/
theorem gameRouteDel_withEntries (hreg : gl.Registered uid) (h : e uid = gl.uid2Playid uid) :
    (gameRouteDel (gl.withEntries e) uid).2 = (gameRouteDel gl uid).2.withEntries
      (Function.update e uid { gl.uid2Playid uid with state := .typeInvalid }) := by
  have hreg' : (gl.withEntries e).Registered uid :=
    (GameLogic.registered_withEntries (congrArg PlayerId.state h)).mpr hreg
  have hm := GameLogic.mapOf_withEntries h
  have hi := GameLogic.slotOf_withEntries h
  by_cases hslot : gl.mapPlayerSocketUid (gl.mapOf uid) (gl.slotOf uid) = some uid
  · have hslot' : (gl.withEntries e).mapPlayerSocketUid ((gl.withEntries e).mapOf uid)
        ((gl.withEntries e).slotOf uid) = some uid := by
      rw [hm, hi]
      exact hslot
    rw [gameRouteDel_of_slot hreg hslot, gameRouteDel_of_slot hreg' hslot']
    exact GameLogic.unregister_withEntries h
  · have hslot' : (gl.withEntries e).mapPlayerSocketUid ((gl.withEntries e).mapOf uid)
        ((gl.withEntries e).slotOf uid) ≠ some uid := by
      rw [hm, hi]
      exact hslot
    rw [gameRouteDel_of_mismatch hreg hslot, gameRouteDel_of_mismatch hreg' hslot']
    exact GameLogic.dropEntry_withEntries h

end Append

section Step

variable {gl gl' : GameLogic} {e : Uid → PlayerId} {uid : Uid} {msg : GameMsg}
  {out : List Broadcast}

theorem GameLogic.ignores_withEntries (h : gl.Ignores msg)
    (hself : (e msg.uid).Agrees (gl.uid2Playid msg.uid)) : (gl.withEntries e).Ignores msg := by
  cases msg with
  | success uid => exact h
  | close uid => exact mt (registered_withEntries hself.state_eq).mp h
  | data uid req => exact fun hreg => h ((registered_withEntries hself.state_eq).mp hreg)

theorem GameLogic.login_withEntries (h : e uid = gl.uid2Playid uid) (req : LoginReq) :
    (gl.withEntries e).login uid req = (gl.login uid req).withEntries e := by
  rw [login, playerOf_withEntries h, setPlayer_withEntries h, login]

theorem GameLogic.start_withEntries (h : e uid = gl.uid2Playid uid) :
    (gl.withEntries e).start uid = (gl.start uid).withEntries e := by
  rw [start, mapOf_withEntries h]
  rfl

theorem GameLogic.move_withEntries (h : e uid = gl.uid2Playid uid) (req : MoveReq) :
    (gl.withEntries e).move uid req = (gl.move uid req).withEntries e := by
  rw [move, playerOf_withEntries h, setPlayer_withEntries h, move]

theorem loginReplies_withEntries (h : e uid = gl.uid2Playid uid)
    (hlist : ∀ v ∈ gl.recipients (gl.mapOf uid), e v = gl.uid2Playid v) :
    loginReplies (gl.withEntries e) uid = loginReplies gl uid := by
  have henemies : ((gl.withEntries e).recipients (gl.mapOf uid)).map
      (enemyMsgTo (gl.withEntries e) uid) =
      (gl.recipients (gl.mapOf uid)).map (enemyMsgTo gl uid) :=
    List.map_congr_left fun v hv => GameLogic.enemyMsgTo_withEntries (hlist v hv)
  rw [loginReplies, GameLogic.mapOf_withEntries h, GameLogic.playerOf_withEntries h, henemies]
  rfl

/-- **A step over other entries.** A service does the same over any entries that agree with its
own at the uid of the message and, for a login, at the uids in the list of the map. -/
theorem GameStep.withEntries (hstep : GameStep gl msg gl' out)
    (hagrees : gl.AgreesAt e msg) :
    ∃ e', GameStep (gl.withEntries e) msg (gl'.withEntries e') out ∧
      (∀ v, v ≠ msg.uid → e' v = e v) ∧ (e' msg.uid).Agrees (gl'.uid2Playid msg.uid) := by
  have hself := hagrees.self
  cases hstep with
  | success uid =>
    have huid : (e uid).Agrees (gl.uid2Playid uid) := hself
    obtain ⟨e', happend, hother, hself'⟩ := gameRouteAppend_withEntries huid
    refine ⟨e', ?_, hother, hself'⟩
    rw [← happend]
    exact .success uid
  | ignored hig =>
    exact ⟨e, .ignored (GameLogic.ignores_withEntries hig hself), fun _ _ => rfl, hself⟩
  | login uid req hreg hnum hregs =>
    have h : e uid = gl.uid2Playid uid := hself.eq_of_using hreg
    have hlist (v : Uid) (hv : v ∈ gl.recipients (gl.mapOf uid)) : e v = gl.uid2Playid v := by
      rw [← GameLogic.introduced_login hreg req] at hv
      refine (hagrees v (.inr hv)).eq_of_using (hregs v ?_)
      rwa [GameLogic.introduced_login hreg] at hv
    have hmap : (gl.withEntries e).mapOf uid = gl.mapOf uid := GameLogic.mapOf_withEntries h
    have hreg' := (GameLogic.registered_withEntries hself.state_eq).mpr hreg
    have hnum' : (gl.withEntries e).mapPlayerNum ((gl.withEntries e).mapOf uid) ≤
        maxPlayerEachMap := by
      rw [hmap]
      exact hnum
    have hregs' : ∀ v ∈ (gl.withEntries e).recipients ((gl.withEntries e).mapOf uid),
        (gl.withEntries e).Registered v := by
      rw [hmap]
      intro v hv
      exact (GameLogic.registered_withEntries (congrArg PlayerId.state (hlist v hv))).mpr
        (hregs v hv)
    have hstep' := GameStep.login uid req hreg' hnum' hregs'
    have hreplies : loginReplies ((gl.login uid req).withEntries e) uid =
        loginReplies (gl.login uid req) uid := loginReplies_withEntries h hlist
    rw [GameLogic.login_withEntries h, hreplies] at hstep'
    exact ⟨e, hstep', fun _ _ => rfl, .inl h⟩
  | start uid hreg hnonneg hnum =>
    have h : e uid = gl.uid2Playid uid := hself.eq_of_using hreg
    have hmap : (gl.withEntries e).mapOf uid = gl.mapOf uid := GameLogic.mapOf_withEntries h
    have hreg' := (GameLogic.registered_withEntries hself.state_eq).mpr hreg
    have hnonneg' : 0 ≤ (gl.withEntries e).mapPlayerNum ((gl.withEntries e).mapOf uid) := by
      rw [hmap]
      exact hnonneg
    have hnum' : (gl.withEntries e).mapPlayerNum ((gl.withEntries e).mapOf uid) <
        maxPlayerEachMap := by
      rw [hmap]
      exact hnum
    have hstep' := GameStep.start uid hreg' hnonneg' hnum'
    rw [GameLogic.start_withEntries h, hmap, GameLogic.playerOf_withEntries h] at hstep'
    exact ⟨e, hstep', fun _ _ => rfl, .inl h⟩
  | move uid req hreg hnum =>
    have h : e uid = gl.uid2Playid uid := hself.eq_of_using hreg
    have hmap : (gl.withEntries e).mapOf uid = gl.mapOf uid := GameLogic.mapOf_withEntries h
    have hreg' := (GameLogic.registered_withEntries hself.state_eq).mpr hreg
    have hnum' : (gl.withEntries e).mapPlayerNum ((gl.withEntries e).mapOf uid) ≤
        maxPlayerEachMap := by
      rw [hmap]
      exact hnum
    have hstep' := GameStep.move uid req hreg' hnum'
    rw [GameLogic.move_withEntries h, hmap, GameLogic.playerOf_withEntries h] at hstep'
    exact ⟨e, hstep', fun _ _ => rfl, .inl h⟩
  | leave uid data hreg =>
    have h : e uid = gl.uid2Playid uid := hself.eq_of_using hreg
    have hreg' := (GameLogic.registered_withEntries hself.state_eq).mpr hreg
    have hstep' := GameStep.leave uid data hreg'
    rw [GameLogic.playerOf_withEntries h] at hstep'
    exact ⟨e, hstep', fun _ _ => rfl, .inl h⟩
  | close uid l hreg hl hnum =>
    have h : e uid = gl.uid2Playid uid := hself.eq_of_using hreg
    have hmap : (gl.withEntries e).mapOf uid = gl.mapOf uid := GameLogic.mapOf_withEntries h
    have hreg' := (GameLogic.registered_withEntries hself.state_eq).mpr hreg
    have hl' : (gl.withEntries e).IsRebuilt uid l := by
      rw [GameLogic.IsRebuilt, hmap]
      exact hl
    have hnum' : (gl.withEntries e).mapPlayerNum ((gl.withEntries e).mapOf uid) - 1 ≤
        maxPlayerEachMap := by
      rw [hmap]
      exact hnum
    have hstep' := GameStep.close uid l hreg' hl' hnum'
    have hreg₁ : (gl.setList (gl.mapOf uid) l).Registered uid := hreg
    have hdel := gameRouteDel_withEntries hreg₁ h
    have hlist' : (gl.withEntries e).setList (gl.mapOf uid) l =
        (gl.setList (gl.mapOf uid) l).withEntries e := rfl
    rw [hmap, hlist', hdel, GameLogic.playerOf_withEntries h] at hstep'
    refine ⟨_, hstep', fun v hv => Function.update_of_ne hv .., .inl ?_⟩
    rw [gameRouteDel_uid2Playid hreg₁]
    simp only [GameMsg.uid_close, Function.update_self]

/-- A service handles a message without a fault just when it does so over entries that agree. -/
theorem exists_step_withEntries (h : gl.AgreesAt e msg) :
    (∃ r, disposeQueueEvent (gl.withEntries e) msg = .ok r) ↔
      ∃ r, disposeQueueEvent gl msg = .ok r := by
  constructor
  · rintro ⟨⟨gl', out⟩, hstep⟩
    obtain ⟨e', hstep', -⟩ := (disposeQueueEvent_step hstep).withEntries h.symm
    exact ⟨_, disposeQueueEvent_eq_ok.mpr hstep'⟩
  · rintro ⟨⟨gl', out⟩, hstep⟩
    obtain ⟨e', hstep', -⟩ := (disposeQueueEvent_step hstep).withEntries h
    exact ⟨_, disposeQueueEvent_eq_ok.mpr hstep'⟩

end Step

/-! ### What the services handle -/

/-- The services with owners as a machine that writes down which message a game service has
handled, and what it has sent. -/
def handledMachine (P : Protobuf) :
    Machine Owned ServicesIn (PartStep ServiceId GameMsg Broadcast) Fault where
  step s i :=
    match i with
    | .netIo msg => do
      let (sv, _) ← s.services.receive P msg
      .ok (⟨sv, s.owner⟩, [])
    | .game g => do
      let (sv, out) ← s.services.handle g
      .ok (⟨sv, ownerAfter g s.services.uid2Playid sv.uid2Playid s.owner⟩,
        (s.services.next g).toList.map fun msg => ⟨g, msg, out⟩)

/-- The sender of the message is told of no player of another service. -/
def IntroducesOwn (s : Owned) (g : ServiceId) (msg : GameMsg) : Prop :=
  ∀ v ∈ (s.services.game g).introduced msg, ∀ g' ∈ s.owner v, g' = g

instance (s : Owned) (g : ServiceId) (msg : GameMsg) : Decidable (IntroducesOwn s g msg) :=
  List.decidableBAll ..

/-- The message is handled in order, and its sender is told of no player of another service. -/
def HandledApart (s : Owned) : ServicesIn → Prop
  | .netIo _ => True
  | .game g => HandledInOrder s (.game g) ∧ ∀ msg ∈ s.services.next g, IntroducesOwn s g msg

instance (s : Owned) (i : ServicesIn) : Decidable (HandledApart s i) :=
  match i with
  | .netIo _ => .isTrue trivial
  | .game g => inferInstanceAs (Decidable
      (HandledInOrder s (.game g) ∧ ∀ msg ∈ s.services.next g, IntroducesOwn s g msg))

/-- The entries that the service `g` owns, and no others in use. -/
structure OwnEntries (s : Owned) (g : ServiceId) (e : Uid → PlayerId) : Prop where
  own : ∀ u, s.owner u = some g → e u = s.services.uid2Playid u
  free : ∀ u, s.owner u ≠ some g → (e u).state = .typeInvalid

/-- The tables of the service `g`, with the entries that it owns. -/
def AloneAs (g : ServiceId) (s : Owned) (gl : GameLogic) : Prop :=
  ∃ e, OwnEntries s g e ∧ gl = (s.services.game g).withEntries e

/-- The state after the service `g` has handled a message. -/
def Owned.handled (s : Owned) (g : ServiceId) (gl : GameLogic)
    (rest : List (ServiceId × GameMsg)) : Owned :=
  ⟨s.services.setGame g gl rest, ownerAfter g s.services.uid2Playid gl.uid2Playid s.owner⟩

/-- An entry that `g` may have put in use belongs to `g` afterwards, if to anyone. -/
theorem ownerAfter_of_turn {g : ServiceId} {before after : Uid → PlayerId}
    {owner : Uid → Option ServiceId} {u : Uid} (h : owner u = none ∨ owner u = some g) :
    ownerAfter g before after owner u = none ∨ ownerAfter g before after owner u = some g := by
  unfold ownerAfter
  split_ifs
  · exact h
  · exact .inr rfl
  · exact .inl rfl

namespace OwnEntries

variable {s : Owned} {g : ServiceId} {e e' : Uid → PlayerId} {msg : GameMsg} {gl : GameLogic}
  {out : List Broadcast} {rest : List (ServiceId × GameMsg)}

theorem agrees (h : OwnEntries s g e) (hinv : OwnedInv s) {v : Uid}
    (hv : s.owner v = none ∨ s.owner v = some g) : (e v).Agrees (s.services.uid2Playid v) := by
  rcases hv with hnone | hown
  · refine .inr ⟨h.free v ?_, (hinv.owner_none v).mp hnone⟩
    rw [hnone]
    exact nofun
  · exact .inl (h.own v hown)

/-- A message handled in order by `g`, whose sender is told of no player of another service, is
handled over entries that `g` owns. -/
theorem agreesAt (h : OwnEntries s g e) (hinv : OwnedInv s) (hok : HandledApart s (.game g))
    (hpop : MergedQueues.pop Prod.fst g s.services.waiting = some ((g, msg), rest))
    (hnext : s.services.next g = some msg) : (s.services.game g).AgreesAt e msg := by
  rintro v (rfl | hv)
  · exact h.agrees hinv (hinv.owner_of_handled hok.1 hpop).2
  · refine h.agrees hinv ?_
    cases howner : s.owner v with
    | none => exact .inl rfl
    | some g' => exact .inr (congrArg some (hok.2 msg hnext v hv g' howner))

/-- The entries of the service whose turn it is. -/
theorem turn (h : OwnEntries s g e) (hinv : OwnedInv s)
    (howner : s.owner msg.uid = none ∨ s.owner msg.uid = some g)
    (hgame : GameStep (s.services.game g) msg gl out)
    (hother : ∀ v, v ≠ msg.uid → e' v = e v)
    (hself : (e' msg.uid).Agrees (gl.uid2Playid msg.uid)) :
    OwnEntries (s.handled g gl rest) g e' := by
  have hsame (v : Uid) (hv : v ≠ msg.uid) : (s.handled g gl rest).owner v = s.owner v :=
    hinv.ownerAfter_of_eq (hgame.entry_of_ne hv)
  have hnone : (s.handled g gl rest).owner msg.uid = none ↔
      (gl.uid2Playid msg.uid).state = .typeInvalid := ownerAfter_eq_none hinv.owner_none msg.uid
  have hturn : (s.handled g gl rest).owner msg.uid = none ∨
      (s.handled g gl rest).owner msg.uid = some g := ownerAfter_of_turn howner
  constructor
  · intro u hu
    by_cases hne : u = msg.uid
    · subst hne
      refine hself.eq_of_using ?_
      cases hstate : (gl.uid2Playid msg.uid).state with
      | typeUsing => rfl
      | typeInvalid => exact nomatch hu.symm.trans (hnone.mpr hstate)
    · rw [hsame u hne] at hu
      rw [hother u hne, h.own u hu]
      exact (hgame.entry_of_ne hne).symm
  · intro u hu
    by_cases hne : u = msg.uid
    · subst hne
      rcases hturn with hfree | hown
      · exact hself.state_eq.trans (hnone.mp hfree)
      · exact absurd hown hu
    · rw [hsame u hne] at hu
      rw [hother u hne]
      exact h.free u hu

/-- The entries of the other services. -/
theorem other {g' : ServiceId} (hne : g' ≠ g) (h : OwnEntries s g' e) (hinv : OwnedInv s)
    (howner : s.owner msg.uid = none ∨ s.owner msg.uid = some g)
    (hgame : GameStep (s.services.game g) msg gl out) :
    OwnEntries (s.handled g gl rest) g' e := by
  have hsame (v : Uid) (hv : v ≠ msg.uid) : (s.handled g gl rest).owner v = s.owner v :=
    hinv.ownerAfter_of_eq (hgame.entry_of_ne hv)
  have hnot : ∀ {o : Option ServiceId}, o = none ∨ o = some g → o ≠ some g' := by
    rintro o (rfl | rfl) he
    · cases he
    · exact hne (Option.some.inj he).symm
  constructor
  · intro u hu
    have hu' : u ≠ msg.uid := by
      rintro rfl
      exact hnot (ownerAfter_of_turn howner) hu
    rw [hsame u hu'] at hu
    rw [h.own u hu]
    exact (hgame.entry_of_ne hu').symm
  · intro u hu
    refine h.free u fun hold => ?_
    have hu' : u ≠ msg.uid := by
      rintro rfl
      exact hnot howner hold
    exact hu ((hsame u hu').trans hold)

end OwnEntries

/-- A service handles its next message when the handlers do. -/
theorem Services.exists_handle {sv : Services} {g : ServiceId} {msg : GameMsg}
    (hnext : sv.next g = some msg) :
    (∃ r, sv.handle g = .ok r) ↔ ∃ r, disposeQueueEvent (sv.game g) msg = .ok r := by
  obtain ⟨⟨⟨g', msg⟩, rest⟩, hpop, rfl⟩ := Option.map_eq_some_iff.mp hnext
  simp only [Services.handle, hpop, Except.bind_eq_ok_iff, Except.ok.injEq]
  constructor
  · rintro ⟨r, q, hq, -⟩
    exact ⟨q, hq⟩
  · rintro ⟨q, hq⟩
    exact ⟨_, q, hq, rfl⟩

/-- **Step lemma.** A step of net logic moves no game service, and a step of a game service moves
that service as if it were alone. -/
theorem OwnedInv.moves {P : Protobuf} {s s' : Owned} {i : ServicesIn}
    {o : List (PartStep ServiceId GameMsg Broadcast)} (hinv : OwnedInv s) (hok : HandledApart s i)
    (hstep : (handledMachine P).step s i = .ok (s', o)) :
    OwnedInv s' ∧ gameMachine.Moves AloneAs s s' o := by
  cases i with
  | netIo msg =>
    obtain ⟨⟨sv, nodes⟩, hreceive, h⟩ := Except.bind_eq_ok_iff.mp hstep
    obtain ⟨rfl, rfl⟩ := Prod.mk.inj (Except.ok.inj h)
    refine ⟨hinv.receive hreceive, .none ?_⟩
    obtain ⟨r, out, -, -, rfl⟩ := Services.receive_eq_ok hreceive
    rintro k gl ⟨e, hown, rfl⟩
    exact ⟨e, ⟨hown.own, hown.free⟩, rfl⟩
  | game g =>
    obtain ⟨⟨sv, out⟩, hhandle, h⟩ := Except.bind_eq_ok_iff.mp hstep
    obtain ⟨rfl, rfl⟩ := Prod.mk.inj (Except.ok.inj h)
    refine ⟨hinv.handle hok.1 hhandle, ?_⟩
    rcases Services.handle_eq_ok hhandle with
      ⟨hnext, rfl, rfl⟩ | ⟨msg, rest, gl, hpop, hnext, hgame, rfl⟩
    · -- The queue of the service is empty.
      rw [hnext]
      refine .none ?_
      have hsame : ownerAfter g s.services.uid2Playid s.services.uid2Playid s.owner = s.owner := by
        funext u
        exact hinv.ownerAfter_of_eq rfl
      rintro k gl ⟨e, hown, rfl⟩
      rw [hsame]
      exact ⟨e, ⟨hown.own, hown.free⟩, rfl⟩
    · have howner := (hinv.owner_of_handled hok.1 hpop).2
      rw [hnext]
      refine .one g msg out ?_ ?_
      · rintro t ⟨e, hown, rfl⟩
        obtain ⟨e', hgame', hother, hself⟩ :=
          hgame.withEntries (hown.agreesAt hinv hok hpop hnext)
        refine ⟨gl.withEntries e', disposeQueueEvent_eq_ok.mpr hgame', e', ?_, ?_⟩
        · exact hown.turn hinv howner hgame hother hself
        · simp only [Services.game, Services.setGame, Function.update_self]
      · rintro g' hne t ⟨e, hown, rfl⟩
        refine ⟨e, hown.other hne hinv howner hgame, ?_⟩
        simp only [Services.game, Services.setGame, Function.update_of_ne hne]
        rfl

/-- **Run lemma.** Every service has made the run of a single one, over the entries that it owns. -/
theorem alone_of_run {P : Protobuf} {heap : ServiceId → MapId → SlotId → Player}
    {gamelogSocket : ServiceId → ℤ} {gameServiceId : ℤ} {is : List ServicesIn}
    {h : List (PartStep ServiceId GameMsg Broadcast)} {s : Owned}
    (hrun : (handledMachine P).Exec HandledApart (ownedStart heap gamelogSocket gameServiceId)
      is h s) (g : ServiceId) :
    OwnedInv s ∧ ∃ e, OwnEntries s g e ∧ gameMachine.Exec Machine.any (gameLogicCreat (heap g))
      (PartStep.readBy g h) (PartStep.wroteBy g h) ((s.services.game g).withEntries e) := by
  have hinit := OwnedInv.init heap gamelogSocket gameServiceId
  have hstart (g : ServiceId) : AloneAs g (ownedStart heap gamelogSocket gameServiceId)
      (gameLogicCreat (heap g)) :=
    ⟨fun _ => ⟨.typeInvalid, 0, 0⟩, ⟨fun _ _ => rfl, fun _ _ => rfl⟩, rfl⟩
  have hstep (s : Owned) (i : ServicesIn) (s' : Owned) (o) (hinv : OwnedInv s)
      (hok : HandledApart s i) (hs : (handledMachine P).step s i = .ok (s', o)) :=
    hinv.moves hok hs
  obtain ⟨gl, hexec, e, hown, rfl⟩ := hrun.parts hinit hstart hstep g
  exact ⟨hrun.invariant hinit fun s i s' o hinv hok hs => (hstep s i s' o hinv hok hs).1,
    e, hown, hexec⟩

/-- **Every game service is as if it were alone.** In every run in which the messages of each uid
are handled in order and no login is told of a player of another service, each of the four services
has made the run of a single game service that reads what it has handled: it has sent the same
broadcasts and has the same tables, over entries that are those it owns and otherwise not in use;
and it would handle its next message without a fault just when it would alone. -/
theorem services_as_if_alone {P : Protobuf} {heap : ServiceId → MapId → SlotId → Player}
    {gamelogSocket : ServiceId → ℤ} {gameServiceId : ℤ} {is : List ServicesIn}
    {h : List (PartStep ServiceId GameMsg Broadcast)} {s : Owned}
    (hrun : (handledMachine P).Exec HandledApart (ownedStart heap gamelogSocket gameServiceId)
      is h s) (g : ServiceId) :
    ∃ e, gameMachine.Exec Machine.any (gameLogicCreat (heap g)) (PartStep.readBy g h)
        (PartStep.wroteBy g h) ((s.services.game g).withEntries e) ∧
      (∀ u, s.owner u = some g → e u = s.services.uid2Playid u) ∧
      (∀ u, s.owner u ≠ some g → (e u).state = .typeInvalid) ∧
      ∀ msg, s.services.next g = some msg → HandledApart s (.game g) →
        ((∃ r, disposeQueueEvent ((s.services.game g).withEntries e) msg = .ok r) ↔
          ∃ r, s.services.handle g = .ok r) := by
  obtain ⟨hinv, e, hown, hexec⟩ := alone_of_run hrun g
  refine ⟨e, hexec, hown.own, hown.free, fun msg hnext hok => ?_⟩
  obtain ⟨⟨⟨g', msg⟩, rest⟩, hpop, rfl⟩ := Option.map_eq_some_iff.mp hnext
  obtain rfl : g' = g := (MergedQueues.pop_eq_some hpop).1
  rw [exists_step_withEntries (hown.agreesAt hinv hok hpop hnext), Services.exists_handle hnext]

/-- The clients 3 to 202 fill the service 0, which registers the client 3; the client 203 connects
and starts at the service 1. -/
def startBesideCrowd : List ServicesIn :=
  (List.range 200).map (fun i => .netIo (.success (Fin.ofNat maxSocket (i + 3)))) ++
    [.netIo (.success 203), .game 0, .game 1, .netIo (.data 203 3 ['S'.toUInt8, 8, 1]), .game 1]

/-- The service 1 is as if it had the client 203 only: the entry of the client 3, which is in use,
is not in use there. -/
theorem services_as_if_alone_run : ∃ s h e,
    (handledMachine oneByteProtobuf).Exec HandledApart
      (ownedStart (fun _ => zeroHeap) (fun _ => 7) 0) startBesideCrowd h s ∧
    PartStep.readBy 0 h = [.success 3] ∧
    PartStep.readBy 1 h = [.success 203, .data 203 (.gameStartReq (some ⟨true⟩))] ∧
    gameMachine.Exec Machine.any (gameLogicCreat zeroHeap) (PartStep.readBy 1 h)
      (PartStep.wroteBy 1 h) ((s.services.game 1).withEntries e) ∧
    e 203 = s.services.uid2Playid 203 ∧
    (s.services.uid2Playid 3).state = .typeUsing ∧ (e 3).state = .typeInvalid := by
  have hrun : ((handledMachine oneByteProtobuf).run HandledApart
      (ownedStart (fun _ => zeroHeap) (fun _ => 7) 0) startBesideCrowd).map
      (fun p => ((PartStep.readBy 0 p.2, PartStep.readBy 1 p.2),
        (p.1.owner 203, p.1.owner 3), (p.1.services.uid2Playid 3).state)) =
      some (([.success 3], [.success 203, .data 203 (.gameStartReq (some ⟨true⟩))]),
        (some 1, some 0), .typeUsing) := by
    decide +kernel
  obtain ⟨s, h, hrun, hobs⟩ := (handledMachine oneByteProtobuf).exec_of_run_map hrun
  simp only [Prod.mk.injEq] at hobs
  obtain ⟨⟨hread₀, hread₁⟩, ⟨howner, howner₃⟩, hused⟩ := hobs
  obtain ⟨e, hexec, hown, hfree, -⟩ := services_as_if_alone hrun 1
  exact ⟨s, h, e, hrun, hread₀, hread₁, hexec, hown 203 howner, hused,
    hfree 3 (by rw [howner₃]; decide)⟩

end GameServer
