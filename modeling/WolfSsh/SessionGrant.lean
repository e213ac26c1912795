import WolfSsh.SessionRequest
import Mathlib.Data.List.Nodup

/-! A channel has one session at most, a refused request leaves the channel as it was, and the
command that `wolfSSH_accept` goes by is a granted one. -/

namespace WolfSsh.SessionRequest

open Runs

/-! The list of channels but for the pty flags, which no session request reads. -/

def Channel.session (c : Channel) : Channel := { c with ptyReq := false }

theorem session_channel (c : Channel) : c.session.channel = c.channel := rfl

theorem session_serial (c : Channel) : c.session.serial = c.serial := rfl

def view (s : Ssh) : List Channel := s.channelList.map Channel.session

section View

variable {s t : Ssh} {c : Channel} {id : Nat}

theorem channelFind_mem (h : s.channelFind id = some c) : c ∈ s.channelList :=
  List.mem_of_find?_eq_some h

theorem channelFind_id (h : s.channelFind id = some c) : c.channel = id := by
  simpa using List.find?_some h

theorem session_mem_view (h : c ∈ s.channelList) : c.session ∈ view s := List.mem_map_of_mem h

theorem mem_view {d : Channel} (h : d ∈ view s) : ∃ c ∈ s.channelList, c.session = d :=
  List.mem_map.mp h

theorem channelFind_isSome : (s.channelFind id).isSome ↔ ∃ d ∈ view s, d.channel = id := by
  rw [Ssh.channelFind, List.find?_isSome]
  constructor
  · rintro ⟨c, hc, hid⟩
    exact ⟨c.session, session_mem_view hc, of_decide_eq_true hid⟩
  · rintro ⟨d, hd, hid⟩
    obtain ⟨c, hc, rfl⟩ := mem_view hd
    exact ⟨c, hc, decide_eq_true hid⟩

theorem view_filter (l : List Channel) (ids : List Nat) :
    (l.filter fun c => c.channel ∉ ids).map Channel.session =
      (l.map Channel.session).filter fun c => c.channel ∉ ids := by
  rw [List.filter_map]
  rfl

theorem view_free (ids : List Nat) (s : Ssh) :
    view (s.free ids) = (view s).filter fun c => c.channel ∉ ids := view_filter s.channelList ids

def atId (id : Nat) (f : Channel → Channel) (c : Channel) : Channel :=
  if c.channel = id then f c else c

theorem atId_of_eq {f : Channel → Channel} (h : c.channel = id) : atId id f c = f c := if_pos h

theorem atId_of_ne {f : Channel → Channel} (h : c.channel ≠ id) : atId id f c = c := if_neg h

theorem view_update {f g : Channel → Channel} (hf : ∀ c, (f c).session = g c.session) (id : Nat)
    (s : Ssh) : view (s.update id f) = (view s).map (atId id g) := by
  rw [view, view, Ssh.update, List.map_map, List.map_map]
  refine List.map_congr_left fun c _ => ?_
  rw [Function.comp, Function.comp]
  by_cases hid : c.channel = id
  · have hsession : c.session.channel = id := hid
    rw [if_pos hid, atId_of_eq hsession, hf]
  · have hsession : c.session.channel ≠ id := hid
    rw [if_neg hid, atId_of_ne hsession]

theorem view_update_same {f : Channel → Channel} (hf : ∀ c, (f c).session = c.session) (id : Nat)
    (s : Ssh) : view (s.update id f) = view s := by
  rw [view_update (g := fun d => d) hf]
  have hid : ∀ c ∈ view s, atId id (fun d => d) c = c := fun c _ => ite_self c
  rw [List.map_congr_left hid, List.map_id']

theorem filter_atId {f : Channel → Channel} (hf : ∀ c, (f c).channel = c.channel) (id : Nat)
    (ids : List Nat) (l : List Channel) :
    (l.map (atId id f)).filter (fun c => c.channel ∉ ids) =
      (l.filter fun c => c.channel ∉ ids).map (atId id f) := by
  rw [List.filter_map]
  congr 1
  refine List.filter_congr fun c _ => ?_
  have hchannel : (atId id f c).channel = c.channel := by
    rw [atId]
    split
    · exact hf c
    · rfl
  rw [Function.comp, hchannel]

end View

/-- Channels may have been freed. The others have kept their session, and nothing was granted. -/
structure Kept (s t : Ssh) : Prop where
  freed : ∃ ids : List Nat, view t = (view s).filter fun c => c.channel ∉ ids
  grants : t.grants = s.grants
  serials : t.serials = s.serials

def Channel.granted (sessionType : SessionType) (command : Option Bytes) (c : Channel) : Channel :=
  (c.ask sessionType command).grant

/-- Channels may have been freed, and one that had no session got one. -/
structure Granted (id : Nat) (sessionType : SessionType) (s t : Ssh) : Prop where
  granted : ∃ (ids : List Nat) (command : Option Bytes), ∃ c ∈ view s,
    c.channel = id ∧ c.sessionGranted = false ∧
      view t = ((view s).filter fun d => d.channel ∉ ids).map
        (atId id (Channel.granted sessionType command)) ∧
      t.grants = s.grants ++ [⟨c.serial, sessionType, command⟩]
  serials : t.serials = s.serials

theorem Kept.of_view {s t : Ssh} (hview : view t = view s) (hgrants : t.grants = s.grants)
    (hserials : t.serials = s.serials) : Kept s t where
  freed := ⟨[], by simp [hview]⟩
  grants := hgrants
  serials := hserials

theorem Kept.refl (s : Ssh) : Kept s s := .of_view rfl rfl rfl

theorem Kept.free (ids : List Nat) (s : Ssh) : Kept s (s.free ids) := ⟨⟨ids, view_free ids s⟩, rfl, rfl⟩

theorem Kept.trans {s t u : Ssh} (h : Kept s t) (h' : Kept t u) : Kept s u := by
  obtain ⟨ids, hids⟩ := h.freed
  obtain ⟨ids', hids'⟩ := h'.freed
  refine ⟨⟨ids ++ ids', ?_⟩, h'.grants.trans h.grants, h'.serials.trans h.serials⟩
  rw [hids', hids, List.filter_filter]
  refine List.filter_congr fun c _ => ?_
  simp [Bool.and_comm]

theorem Granted.of_kept {id : Nat} {sessionType : SessionType} {s t u : Ssh} (h : Kept s t)
    (h' : Granted id sessionType t u) : Granted id sessionType s u := by
  obtain ⟨ids, hids⟩ := h.freed
  obtain ⟨ids', command, c, hc, hid, hfree, hview, hgrants⟩ := h'.granted
  rw [hids] at hc
  refine ⟨⟨ids ++ ids', command, c, List.mem_of_mem_filter hc, hid, hfree, ?_, ?_⟩,
    h'.serials.trans h.serials⟩
  · rw [hview, hids, List.filter_filter]
    congr 1
    refine List.filter_congr fun d _ => ?_
    simp [Bool.and_comm]
  · rw [hgrants, h.grants]

structure Inv (s : Ssh) : Prop where
  ids : ((view s).map Channel.channel).Nodup
  distinct : ((view s).map Channel.serial).Nodup
  below : ∀ c ∈ view s, c.serial < s.serials
  grantsBelow : ∀ g ∈ s.grants, g.serial < s.serials
  once : (s.grants.map Grant.serial).Nodup
  none : ∀ c ∈ view s, c.sessionGranted = false →
    c.command = none ∧ c.commandSz = 0 ∧ ∀ g ∈ s.grants, g.serial ≠ c.serial
  some : ∀ c ∈ view s, c.sessionGranted = true →
    ∃ g ∈ s.grants, g.serial = c.serial ∧ g.sessionType = c.sessionType ∧ g.command = c.command

theorem Inv.start : Inv {} := by
  constructor <;> simp [view]

section Inv

variable {s t : Ssh}

theorem Inv.kept (h : Inv s) (hk : Kept s t) : Inv t := by
  obtain ⟨⟨ids, hview⟩, hgrants, hserials⟩ := hk
  have hsub : (view t).Sublist (view s) := by
    rw [hview]
    exact List.filter_sublist
  constructor
  · exact h.ids.sublist (hsub.map _)
  · exact h.distinct.sublist (hsub.map _)
  · intro c hc
    rw [hserials]
    exact h.below c (hsub.subset hc)
  · rw [hgrants, hserials]
    exact h.grantsBelow
  · rw [hgrants]
    exact h.once
  · rw [hgrants]
    exact fun c hc => h.none c (hsub.subset hc)
  · rw [hgrants]
    exact fun c hc => h.some c (hsub.subset hc)

theorem Inv.same_id (h : Inv s) {c d : Channel} (hc : c ∈ view s) (hd : d ∈ view s)
    (hid : c.channel = d.channel) : c = d :=
  List.inj_on_of_nodup_map h.ids hc hd hid

theorem Inv.same_serial (h : Inv s) {c d : Channel} (hc : c ∈ view s) (hd : d ∈ view s)
    (hserial : c.serial = d.serial) : c = d :=
  List.inj_on_of_nodup_map h.distinct hc hd hserial

theorem granted_channel (sessionType : SessionType) (command : Option Bytes) (c : Channel) :
    (c.granted sessionType command).channel = c.channel := by
  cases command <;> rfl

theorem granted_serial (sessionType : SessionType) (command : Option Bytes) (c : Channel) :
    (c.granted sessionType command).serial = c.serial := by
  cases command <;> rfl

theorem granted_sessionGranted (sessionType : SessionType) (command : Option Bytes) (c : Channel) :
    (c.granted sessionType command).sessionGranted = true := by
  cases command <;> rfl

theorem granted_sessionType (sessionType : SessionType) (command : Option Bytes) (c : Channel) :
    (c.granted sessionType command).sessionType = sessionType := by
  cases command <;> rfl

theorem granted_command (sessionType : SessionType) (command : Option Bytes) {c : Channel}
    (hnone : c.command = none) : (c.granted sessionType command).command = command := by
  cases command with
  | none => exact hnone
  | some _ => rfl

theorem Inv.granted (h : Inv s) {id : Nat} {sessionType : SessionType}
    (hg : Granted id sessionType s t) : Inv t := by
  obtain ⟨⟨ids, command, c, hc, rfl, hfree, hview, hgrants⟩, hserials⟩ := hg
  have hsub : ((view s).filter fun d => d.channel ∉ ids).Sublist (view s) := List.filter_sublist
  obtain ⟨hnone, -, hnew⟩ := h.none c hc hfree
  -- A channel of the list after the grant is the granted one or one that was there.
  have hmem : ∀ d ∈ view t, d = c.granted sessionType command ∨ d ∈ view s ∧ d.channel ≠ c.channel := by
    intro d hd
    rw [hview] at hd
    obtain ⟨b, hb, rfl⟩ := List.mem_map.mp hd
    have hbs := hsub.subset hb
    by_cases hid : b.channel = c.channel
    · left
      rw [atId_of_eq hid, h.same_id hbs hc hid]
    · right
      rw [atId_of_ne hid]
      exact ⟨hbs, hid⟩
  have hmap : ∀ {β : Type} (f : Channel → β), (∀ d : Channel, f (d.granted sessionType command) = f d) →
      ((view t).map f).Sublist ((view s).map f) := by
    intro β f hf
    have heq : (view t).map f = ((view s).filter fun d => d.channel ∉ ids).map f := by
      rw [hview, List.map_map]
      refine List.map_congr_left fun d _ => ?_
      rw [Function.comp, atId]
      split
      · exact hf d
      · rfl
    rw [heq]
    exact hsub.map f
  constructor
  · exact h.ids.sublist (hmap _ (granted_channel sessionType command))
  · exact h.distinct.sublist (hmap _ (granted_serial sessionType command))
  · intro d hd
    rw [hserials]
    rcases hmem d hd with rfl | ⟨hds, -⟩
    · rw [granted_serial]
      exact h.below c hc
    · exact h.below d hds
  · intro g hgm
    rw [hserials]
    rw [hgrants, List.mem_append, List.mem_singleton] at hgm
    rcases hgm with hgm | rfl
    · exact h.grantsBelow g hgm
    · exact h.below c hc
  · rw [hgrants, List.map_append, List.nodup_append]
    refine ⟨h.once, by simp, ?_⟩
    intro a ha b hb hab
    obtain ⟨g, hgm, rfl⟩ := List.mem_map.mp ha
    rw [List.map_singleton, List.mem_singleton] at hb
    exact hnew g hgm (hab.trans hb)
  · intro d hd hdfree
    rcases hmem d hd with rfl | ⟨hds, hne⟩
    · rw [granted_sessionGranted] at hdfree
      exact absurd hdfree nofun
    · obtain ⟨hcommand, hsz, hold⟩ := h.none d hds hdfree
      refine ⟨hcommand, hsz, ?_⟩
      intro g hgm
      rw [hgrants, List.mem_append, List.mem_singleton] at hgm
      rcases hgm with hgm | rfl
      · exact hold g hgm
      · intro hserial
        exact hne (congrArg Channel.channel (h.same_serial hds hc hserial.symm))
  · intro d hd hdgranted
    rw [hgrants]
    rcases hmem d hd with rfl | ⟨hds, -⟩
    · refine ⟨_, List.mem_append_right _ (List.mem_singleton_self _), ?_, ?_, ?_⟩
      · rw [granted_serial]
      · rw [granted_sessionType]
      · rw [granted_command sessionType command hnone]
    · obtain ⟨g, hgm, hrest⟩ := h.some d hds hdgranted
      exact ⟨g, List.mem_append_left _ hgm, hrest⟩

theorem Inv.opened (h : Inv s) (id peerChannel : Nat) : Inv (s.opened id peerChannel) := by
  rw [Ssh.opened]
  cases hfind : s.channelFind id with
  | some _ => exact h
  | none =>
    have hfresh : ∀ d ∈ view s, d.channel ≠ id := by
      intro d hd hid
      have hsome := channelFind_isSome.mpr ⟨d, hd, hid⟩
      rw [hfind] at hsome
      exact absurd hsome nofun
    let new : Channel := { serial := s.serials, channel := id, peerChannel }
    have hview : ∀ u : Ssh, u.channelList = s.channelList ++ [new] → view u = view s ++ [new] := by
      intro u hu
      rw [view, hu, List.map_append]
      rfl
    have hmem : ∀ d ∈ view s ++ [new], d ∈ view s ∨ d = new := by simp
    constructor
    · rw [hview _ rfl, List.map_append, List.nodup_append]
      refine ⟨h.ids, by simp, ?_⟩
      intro a ha b hb hab
      obtain ⟨d, hd, rfl⟩ := List.mem_map.mp ha
      rw [List.map_singleton, List.mem_singleton] at hb
      exact hfresh d hd (hab.trans hb)
    · rw [hview _ rfl, List.map_append, List.nodup_append]
      refine ⟨h.distinct, by simp, ?_⟩
      intro a ha b hb hab
      obtain ⟨d, hd, rfl⟩ := List.mem_map.mp ha
      rw [List.map_singleton, List.mem_singleton] at hb
      have hlt := h.below d hd
      have heq : d.serial = s.serials := hab.trans hb
      omega
    · rw [hview _ rfl]
      intro d hd
      change d.serial < s.serials + 1
      rcases hmem d hd with hd | rfl
      · have hlt := h.below d hd
        omega
      · exact Nat.lt_succ_self _
    · intro g hg
      exact Nat.lt_succ_of_lt (h.grantsBelow g hg)
    · exact h.once
    · rw [hview _ rfl]
      intro d hd hfree
      rcases hmem d hd with hd | rfl
      · exact h.none d hd hfree
      · refine ⟨rfl, rfl, ?_⟩
        intro g hg hserial
        have hlt := h.grantsBelow g hg
        have heq : g.serial = s.serials := hserial
        omega
    · rw [hview _ rfl]
      intro d hd hgranted
      rcases hmem d hd with hd | rfl
      · exact h.some d hd hgranted
      · exact absurd hgranted nofun

end Inv

/-! One request, up to its reply. -/

section Handled

variable {s : Ssh} {channel : Channel} {id : Nat}

theorem ask_channel (sessionType : SessionType) (command : Option Bytes) (c : Channel) :
    (c.ask sessionType command).channel = c.channel := by
  cases command <;> rfl

theorem ask_session (sessionType : SessionType) (command : Option Bytes) (c : Channel) :
    (c.ask sessionType command).session = c.session.ask sessionType command := by
  cases command <;> rfl

theorem ask_serial (sessionType : SessionType) (command : Option Bytes) (c : Channel) :
    (c.ask sessionType command).serial = c.serial := by
  cases command <;> rfl

theorem sessionCommand_shape {memory : Bool} {sessionType : SessionType} {buf : Bytes} {idx : Nat}
    {command : Option Bytes}
    (h : ((sessionCommand memory sessionType buf).runAt idx).1 = .ok command) :
    command.isSome = hasCommand sessionType := by
  rw [sessionCommand] at h
  cases hhas : hasCommand sessionType with
  | false =>
    rw [hhas, if_neg Bool.false_ne_true] at h
    cases h
    rfl
  | true =>
    rw [hhas, if_pos rfl, Fallible.runAt_bind] at h
    cases hread : (getStringAlloc memory buf).runAt idx with
    | mk r rest =>
      rw [hread] at h
      cases r with
      | error _ => cases h
      | ok _ =>
        cases h
        rfl

/-- A refusal undoes what was written for the callback, on a channel without a command. -/
theorem putBack_ask {c : Channel} {sessionType : SessionType} {command : Option Bytes}
    (hnone : c.command = none) (hsz : c.commandSz = 0)
    (hshape : command.isSome = hasCommand sessionType) :
    (c.ask sessionType command).putBack sessionType c.sessionType = c := by
  cases command with
  | none =>
    rw [Channel.putBack, ← hshape]
    rfl
  | some cmd =>
    rw [Channel.putBack, ← hshape]
    cases c
    cases hnone
    cases hsz
    rfl

theorem view_asked (sessionType : SessionType) (command : Option Bytes) (id : Nat)
    (ids : List Nat) (s : Ssh) :
    view ((s.update id (Channel.ask sessionType command)).free ids) =
      ((view s).filter fun c => c.channel ∉ ids).map (atId id (Channel.ask sessionType command)) := by
  rw [view_free, view_update (ask_session sessionType command),
    filter_atId (ask_channel sessionType command)]

theorem putBack_session (sessionType prevType : SessionType) (c : Channel) :
    (c.putBack sessionType prevType).session = c.session.putBack sessionType prevType := by
  cases sessionType <;> rfl

/-- Either the request changes no session, and if it is not refused its channel is gone, or it is
granted. -/
theorem doChannelRequestSession_spec (h : Inv s) (hfind : s.channelFind id = some channel)
    (env : Env) (sessionType : SessionType) (granted : Bool) (buf : Bytes) (idx : Nat) :
    let r := doChannelRequestSession env channel sessionType granted buf idx s
    (Kept s r.ssh ∧ (r.ret = .ok () → r.rej = false → r.ssh.channelFind id = none)) ∨
      (Granted id sessionType s r.ssh ∧ r.ret = .ok () ∧ r.rej = false) := by
  obtain rfl := channelFind_id hfind
  have hchannel := session_mem_view (channelFind_mem hfind)
  intro r
  have hr : r = doChannelRequestSession env channel sessionType granted buf idx s := rfl
  rw [doChannelRequestSession] at hr
  cases hparse : ((sessionCommand env.memory sessionType buf).runAt idx).1 with
  | error e =>
    rw [hparse] at hr
    rw [hr]
    exact .inl ⟨.refl s, nofun⟩
  | ok command =>
    rw [hparse] at hr
    dsimp only at hr
    by_cases hgranted : channel.sessionGranted = true
    · rw [if_pos hgranted] at hr
      rw [hr]
      exact .inl ⟨.refl s, fun _ => nofun⟩
    rw [if_neg hgranted] at hr
    obtain ⟨hnone, hsz, -⟩ := h.none channel.session hchannel (eq_false_of_ne_true hgranted)
    have hshape := sessionCommand_shape hparse
    generalize hanswer : sessionVerdict env sessionType granted = answer at hr
    have hview := view_asked sessionType command channel.channel answer.freed s
    generalize hasked :
      (s.update channel.channel (Channel.ask sessionType command)).free answer.freed = asked at hr hview
    have hgrants : asked.grants = s.grants := by rw [← hasked]; rfl
    have hserials : asked.serials = s.serials := by rw [← hasked]; rfl
    cases hstill : asked.channelFind channel.channel with
    | none =>
      rw [hstill] at hr
      rw [hr]
      refine .inl ⟨⟨⟨answer.freed, ?_⟩, hgrants, hserials⟩, fun _ _ => hstill⟩
      have hgone : ∀ d ∈ (view s).filter fun d => d.channel ∉ answer.freed,
          atId channel.channel (Channel.ask sessionType command) d = d := by
        intro d hd
        refine atId_of_ne fun hid => ?_
        have hmem : atId channel.channel (Channel.ask sessionType command) d ∈ view asked := by
          rw [hview]
          exact List.mem_map_of_mem hd
        rw [atId_of_eq hid] at hmem
        have hsome := channelFind_isSome.mpr ⟨_, hmem, (ask_channel sessionType command d).trans hid⟩
        rw [hstill] at hsome
        exact absurd hsome nofun
      rw [hview, List.map_congr_left hgone, List.map_id']
    | some c =>
      rw [hstill] at hr
      dsimp only at hr
      have hc := channelFind_id hstill
      rw [hc] at hr
      by_cases haccept : answer.verdict = 0
      · rw [if_pos haccept] at hr
        rw [hr]
        refine .inr ⟨⟨⟨answer.freed, command, channel.session, hchannel, rfl,
          eq_false_of_ne_true hgranted, ?_, ?_⟩, hserials⟩, rfl, rfl⟩
        · have hupdate := view_update (f := Channel.grant) (g := Channel.grant) (fun _ => rfl)
            channel.channel asked
          refine Eq.trans hupdate ?_
          rw [hview, List.map_map]
          refine List.map_congr_left fun d _ => ?_
          rw [Function.comp]
          by_cases hid : d.channel = channel.channel
          · rw [atId_of_eq hid, atId_of_eq ((ask_channel sessionType command _).trans hid),
              atId_of_eq hid]
            rfl
          · rw [atId_of_ne hid, atId_of_ne hid, atId_of_ne hid]
        · have hmem := session_mem_view (channelFind_mem hstill)
          rw [hview] at hmem
          obtain ⟨d, hd, hdc⟩ := List.mem_map.mp hmem
          have hserial : d.serial = c.serial ∧ d.channel = c.channel := by
            rw [atId] at hdc
            split at hdc
            · rw [← session_serial c, ← session_channel c, ← hdc, ask_serial, ask_channel]
              exact ⟨rfl, rfl⟩
            · rw [hdc]
              exact ⟨rfl, rfl⟩
          obtain rfl := h.same_id (List.mem_of_mem_filter hd) hchannel (hserial.2.trans hc)
          rw [← hserial.1, ← hgrants]
      · rw [if_neg haccept] at hr
        rw [hr]
        refine .inl ⟨⟨⟨answer.freed, ?_⟩, hgrants, hserials⟩, fun _ => nofun⟩
        have hupdate := view_update (putBack_session sessionType channel.sessionType)
          channel.channel asked
        rw [hupdate, hview, List.map_map]
        have hback : ∀ d ∈ (view s).filter fun d => d.channel ∉ answer.freed,
            (atId channel.channel (Channel.putBack sessionType channel.sessionType) ∘
              atId channel.channel (Channel.ask sessionType command)) d = d := by
          intro d hd
          rw [Function.comp]
          by_cases hid : d.channel = channel.channel
          · obtain rfl := h.same_id (List.mem_of_mem_filter hd) hchannel hid
            rw [atId_of_eq hid, atId_of_eq ((ask_channel sessionType command _).trans hid)]
            exact putBack_ask hnone hsz hshape
          · rw [atId_of_ne hid, atId_of_ne hid]
        rw [List.map_congr_left hback, List.map_id']

theorem doChannelRequestSession_sent (env : Env) (sessionType : SessionType) (granted : Bool)
    (buf : Bytes) (idx : Nat) :
    (doChannelRequestSession env channel sessionType granted buf idx s).ssh.sent = s.sent := by
  unfold doChannelRequestSession
  split
  · rfl
  split
  · rfl
  dsimp only
  split
  · rfl
  split <;> rfl

theorem ptyReq_kept (env : Env) (buf : Bytes) (idx : Nat) :
    Kept s (ptyReq env channel buf idx s).ssh ∧ (ptyReq env channel buf idx s).ssh.sent = s.sent := by
  unfold ptyReq
  split
  · exact ⟨.refl s, rfl⟩
  · refine ⟨.of_view ?_ rfl rfl, rfl⟩
    exact view_update_same (f := fun c => { c with ptyReq := true }) (fun _ => rfl) channel.channel s

theorem windowChange_kept (env : Env) (buf : Bytes) (idx : Nat) :
    Kept s (windowChange env channel buf idx s).ssh ∧
      (windowChange env channel buf idx s).ssh.sent = s.sent := by
  unfold windowChange
  split
  · exact ⟨.refl s, rfl⟩
  split
  · exact ⟨.of_view rfl rfl rfl, rfl⟩
  · exact ⟨.refl s, rfl⟩

theorem exitStatus_kept (buf : Bytes) (idx : Nat) :
    Kept s (exitStatus buf idx s).ssh ∧ (exitStatus buf idx s).ssh.sent = s.sent := by
  unfold exitStatus
  split
  · exact ⟨.refl s, rfl⟩
  · exact ⟨.of_view rfl rfl rfl, rfl⟩

theorem handle_other {type : Bytes} (htype : sessionTypeOf type = none) (env : Env) (granted : Bool)
    (buf : Bytes) (idx : Nat) :
    Kept s (handle env channel type granted buf idx s).ssh ∧
      (handle env channel type granted buf idx s).ssh.sent = s.sent := by
  unfold handle
  rw [htype]
  split
  · exact ⟨.refl s, rfl⟩
  dsimp only
  split
  · exact ptyReq_kept env buf idx
  split
  · exact windowChange_kept env buf idx
  split
  · exact exitStatus_kept buf idx
  split
  · exact ⟨.refl s, rfl⟩
  split
  · dsimp only
    split
    · exact ⟨.of_view rfl rfl rfl, rfl⟩
    · exact ⟨.refl s, rfl⟩
  · exact ⟨.refl s, rfl⟩

theorem handle_session {type : Bytes} {sessionType : SessionType}
    (htype : sessionTypeOf type = some sessionType) (env : Env) (granted : Bool) (buf : Bytes)
    (idx : Nat) : handle env channel type granted buf idx s =
      doChannelRequestSession env channel sessionType granted buf idx s := by
  have henv : type ≠ ascii "env" := by
    rintro rfl
    have hnone : sessionTypeOf (ascii "env") = none := by decide
    rw [hnone] at htype
    cases htype
  rw [handle, if_neg henv, htype]

theorem askAny_kept (env : Env) (type : Bytes) (s : Ssh) :
    Kept s (askAny env type s).1 ∧ (askAny env type s).1.sent = s.sent := by
  unfold askAny
  split
  · exact ⟨.refl s, rfl⟩
  split
  · exact ⟨.refl s, rfl⟩
  · exact ⟨.free _ s, rfl⟩

/-- What a request does to the sessions: nothing, and then a session request fails, is refused or
has lost its channel; or a grant. -/
inductive Outcome (r : Request) (s : Ssh) (h : Handled) : Prop where
  | kept (hkept : Kept s h.ssh) (hfails : (sessionTypeOf r.type).isSome → h.ret = .ok () →
      h.rej = false → h.ssh.channelFind r.channelId = none)
  | granted {sessionType : SessionType} (htype : sessionTypeOf r.type = some sessionType)
      (hgranted : Granted r.channelId sessionType s h.ssh) (hret : h.ret = .ok ())
      (hrej : h.rej = false)

theorem handled_outcome (h : Inv s) (env : Env) (buf : Bytes) (idx : Nat) (r : Request) :
    Outcome r s (r.handled env buf idx s) ∧ (r.handled env buf idx s).ssh.sent = s.sent := by
  obtain ⟨hask, hsent⟩ := askAny_kept env r.type s
  rw [Request.handled]
  cases s.channelFind r.channelId with
  | none => exact ⟨.kept (.refl s) fun _ => nofun, rfl⟩
  | some _ =>
    dsimp only
    generalize askAny env r.type s = asked at hask hsent ⊢
    obtain ⟨t, rej, granted⟩ := asked
    dsimp only at hask hsent ⊢
    cases rej with
    | true => exact ⟨.kept hask fun _ _ => nofun, hsent⟩
    | false =>
      cases hfind : t.channelFind r.channelId with
      | none => exact ⟨.kept hask fun _ _ _ => hfind, hsent⟩
      | some channel =>
        dsimp only
        cases htype : sessionTypeOf r.type with
        | none =>
          obtain ⟨hkept, hsame⟩ := @handle_other t channel r.type htype env granted buf idx
          refine ⟨.kept (hask.trans hkept) ?_, hsame.trans hsent⟩
          rw [htype]
          exact nofun
        | some sessionType =>
          rw [handle_session htype]
          refine ⟨?_, (doChannelRequestSession_sent ..).trans hsent⟩
          rcases doChannelRequestSession_spec (h.kept hask) hfind env sessionType granted buf idx with
            ⟨hkept, hgone⟩ | ⟨hgranted, hret, hrej⟩
          · exact .kept (hask.trans hkept) fun _ => hgone
          · exact .granted htype (.of_kept hask hgranted) hret hrej

end Handled

section Outcome

variable {s t : Ssh} {id : Nat}

theorem Kept.found (h : Kept s t) (hfound : (t.channelFind id).isSome) :
    (s.channelFind id).isSome := by
  obtain ⟨ids, hview⟩ := h.freed
  obtain ⟨d, hd, hid⟩ := channelFind_isSome.mp hfound
  rw [hview] at hd
  exact channelFind_isSome.mpr ⟨d, List.mem_of_mem_filter hd, hid⟩

theorem Granted.found {sessionType : SessionType} (h : Granted id sessionType s t) :
    (s.channelFind id).isSome := by
  obtain ⟨_, _, c, hc, hid, _⟩ := h.granted
  exact channelFind_isSome.mpr ⟨c, hc, hid⟩

theorem Granted.grants_ne {sessionType : SessionType} (h : Granted id sessionType s t) :
    t.grants ≠ s.grants := by
  obtain ⟨_, _, _, _, _, _, _, hgrants⟩ := h.granted
  rw [hgrants]
  simp

variable {r : Request} {g : Handled}

theorem Outcome.found (h : Outcome r s g) (hfound : (g.ssh.channelFind r.channelId).isSome) :
    (s.channelFind r.channelId).isSome := by
  cases h with
  | kept hkept _ => exact hkept.found hfound
  | granted _ hgranted _ _ => exact hgranted.found

theorem Outcome.success (h : Outcome r s g) (hfound : (g.ssh.channelFind r.channelId).isSome)
    (htype : (sessionTypeOf r.type).isSome) :
    (decide (g.ret = .ok ()) && !g.rej) = true ↔ g.ssh.grants ≠ s.grants := by
  cases h with
  | kept hkept hfails =>
    refine ⟨fun hsuccess => ?_, fun hne => absurd hkept.grants hne⟩
    obtain ⟨hret, hrej⟩ := Bool.and_eq_true_iff.mp hsuccess
    have hgone := hfails htype (of_decide_eq_true hret) (by simpa using hrej)
    rw [hgone] at hfound
    exact absurd hfound nofun
  | granted _ hgranted hret hrej =>
    refine ⟨fun _ => hgranted.grants_ne, fun _ => ?_⟩
    rw [hret, hrej]
    rfl

theorem Outcome.grants (h : Outcome r s g) : g.ssh.grants = s.grants ∨
    ∃ new, g.ssh.grants = s.grants ++ [new] ∧ sessionTypeOf r.type = some new.sessionType ∧
      ∃ c ∈ s.channelList, c.channel = r.channelId ∧ c.serial = new.serial ∧
        c.sessionGranted = false := by
  cases h with
  | kept hkept _ => exact .inl hkept.grants
  | granted htype hgranted _ _ =>
    obtain ⟨_, command, d, hd, hid, hfree, _, hgrants⟩ := hgranted.granted
    obtain ⟨c, hc, rfl⟩ := mem_view hd
    exact .inr ⟨_, hgrants, htype, c, hc, hid, rfl, hfree⟩

theorem Outcome.refused (h : Outcome r s g) (hgrants : g.ssh.grants = s.grants) :
    ∀ c ∈ g.ssh.channelList, ∃ b ∈ s.channelList, b.session = c.session := by
  cases h with
  | granted _ hgranted _ _ => exact absurd hgrants hgranted.grants_ne
  | kept hkept _ =>
    obtain ⟨ids, hview⟩ := hkept.freed
    intro c hc
    have hmem := session_mem_view hc
    rw [hview] at hmem
    exact mem_view (List.mem_of_mem_filter hmem)

end Outcome

theorem sendChannelSuccess_eq (env : Env) (channelId : Nat) (success : Bool) (s : Ssh) :
    ∃ replies, (s.sendChannelSuccess env channelId success).1 = { s with sent := s.sent ++ replies } ∧
      replies.length = ((s.channelFind channelId).isSome && env.bundle.isNone).toNat ∧
      ∀ reply ∈ replies, reply.success = success ∧ (s.channelFind channelId).isSome := by
  rw [Ssh.sendChannelSuccess]
  cases s.channelFind channelId with
  | none => exact ⟨[], by simp⟩
  | some c =>
    cases env.bundle with
    | some _ => exact ⟨[], by simp⟩
    | none => exact ⟨[⟨success, c.peerChannel⟩], rfl, rfl, by simp⟩

theorem doChannelRequest_eq {env : Env} {buf : Bytes} {idx begin : Nat} {r : Request} {s : Ssh}
    (hread : (getRequest buf).runAt idx = (.ok r, begin)) :
    (doChannelRequest env buf idx s).1 =
      if r.asks s then
        ((r.handled env buf begin s).ssh.sendChannelSuccess env r.channelId
          (decide ((r.handled env buf begin s).ret = .ok ()) && !(r.handled env buf begin s).rej)).1
      else (r.handled env buf begin s).ssh := by
  rw [doChannelRequest, hread]
  dsimp only
  split
  · generalize Ssh.sendChannelSuccess _ _ _ _ = sent
    obtain ⟨after, ret⟩ := sent
    cases ret <;> rfl
  · rfl

/-! The whole session. -/

/-- The replies that a request gets: one if it asks, its type is answered, its channel is there when
the reply is sent and the packet is built. -/
def replyDue (env : Env) (r : Request) (t : Ssh) : Bool :=
  r.wantReply && !unanswered r.type && (t.channelFind r.channelId).isSome && env.bundle.isNone

/-- What a request that can be read has done, from `s` to `t`. -/
structure Answered (env : Env) (r : Request) (s t : Ssh) : Prop where
  grants : t.grants = s.grants ∨ ∃ g, t.grants = s.grants ++ [g] ∧
    sessionTypeOf r.type = some g.sessionType ∧
    ∃ c ∈ s.channelList, c.channel = r.channelId ∧ c.serial = g.serial ∧ c.sessionGranted = false
  refused : t.grants = s.grants → ∀ c ∈ t.channelList, ∃ b ∈ s.channelList, b.session = c.session
  replies : ∃ replies, t.sent = s.sent ++ replies ∧ replies.length = (replyDue env r t).toNat ∧
    ∀ reply ∈ replies, (sessionTypeOf r.type).isSome →
      (reply.success = true ↔ t.grants ≠ s.grants)

def Settled (s : Ssh) : Event → Prop
  | .request env buf idx =>
    match ((getRequest buf).runAt idx).1 with
    | .ok r => Answered env r s (step s (.request env buf idx))
    | .error _ => step s (.request env buf idx) = s
  | .opened _ _ | .removed _ => True

theorem asks_found {r : Request} {s : Ssh} (hfound : (s.channelFind r.channelId).isSome) :
    r.asks s = (r.wantReply && !unanswered r.type) := by
  rw [Request.asks, hfound, Bool.true_and]

theorem doChannelRequest_replies {env : Env} {buf : Bytes} {idx begin : Nat} {r : Request} {s : Ssh}
    (hread : (getRequest buf).runAt idx = (.ok r, begin))
    (hout : Outcome r s (r.handled env buf begin s))
    (hsent : (r.handled env buf begin s).ssh.sent = s.sent) :
    ∃ replies, (doChannelRequest env buf idx s).1 =
        { (r.handled env buf begin s).ssh with sent := s.sent ++ replies } ∧
      replies.length = (replyDue env r (r.handled env buf begin s).ssh).toNat ∧
      ∀ reply ∈ replies, (sessionTypeOf r.type).isSome →
        (reply.success = true ↔ (r.handled env buf begin s).ssh.grants ≠ s.grants) := by
  rw [doChannelRequest_eq hread]
  generalize r.handled env buf begin s = g at hout hsent ⊢
  cases hasks : r.asks s with
  | true =>
    obtain ⟨replies, heq, hlen, hall⟩ := sendChannelSuccess_eq env r.channelId
      (decide (g.ret = .ok ()) && !g.rej) g.ssh
    rw [if_pos rfl, heq, hsent]
    refine ⟨replies, rfl, ?_, ?_⟩
    · rw [hlen, replyDue]
      cases hfound : (g.ssh.channelFind r.channelId).isSome with
      | false => simp
      | true =>
        rw [asks_found (hout.found hfound)] at hasks
        rw [hasks]
        rfl
    · intro reply hreply htype
      obtain ⟨hsuccess, hfound⟩ := hall reply hreply
      rw [hsuccess]
      exact hout.success hfound htype
  | false =>
    rw [if_neg Bool.false_ne_true]
    refine ⟨[], ?_, ?_, nofun⟩
    · rw [List.append_nil, ← hsent]
    · rw [replyDue]
      cases hfound : (g.ssh.channelFind r.channelId).isSome with
      | false => simp
      | true =>
        rw [asks_found (hout.found hfound)] at hasks
        rw [hasks]
        rfl

theorem Inv.answered {s : Ssh} (h : Inv s) {env : Env} {buf : Bytes} {idx begin : Nat} {r : Request}
    (hread : (getRequest buf).runAt idx = (.ok r, begin)) :
    Inv (doChannelRequest env buf idx s).1 ∧ Answered env r s (doChannelRequest env buf idx s).1 := by
  obtain ⟨hout, hsent⟩ := handled_outcome h env buf begin r
  obtain ⟨replies, heq, hlen, hsuccess⟩ := doChannelRequest_replies hread hout hsent
  rw [heq]
  constructor
  · have hinv : Inv (r.handled env buf begin s).ssh := by
      cases hout with
      | kept hkept _ => exact h.kept hkept
      | granted _ hgranted _ _ => exact h.granted hgranted
    exact hinv.kept (.of_view rfl rfl rfl)
  · exact ⟨hout.grants, hout.refused, replies, rfl, hlen, hsuccess⟩

theorem Inv.step {s : Ssh} (h : Inv s) (e : Event) : Inv (step s e) ∧ Settled s e := by
  cases e with
  | opened id peerChannel => exact ⟨h.opened id peerChannel, trivial⟩
  | removed id => exact ⟨h.kept (.free [id] s), trivial⟩
  | request env buf idx =>
    rw [SessionRequest.step, Settled]
    cases hread : (getRequest buf).runAt idx with
    | mk parsed begin =>
      cases parsed with
      | ok r => exact h.answered hread
      | error e =>
        have hsame : (doChannelRequest env buf idx s).1 = s := by
          rw [doChannelRequest, hread]
        exact ⟨hsame.symm ▸ h, hsame⟩

/-- One grant a channel, and `wolfSSH_accept` goes by a command granted on the channel it reads. -/
structure Sound (t : Ssh) : Prop where
  once : (t.grants.map Grant.serial).Nodup
  divert : ∀ d command, acceptDivert t = some (d, command) →
    ∃ c ∈ t.channelList.head?, ∃ g ∈ t.grants,
      g.serial = c.serial ∧ g.sessionType = c.sessionType ∧ g.command = command

theorem Inv.sound {t : Ssh} (h : Inv t) : Sound t where
  once := h.once
  divert := by
    intro d command hdivert
    rw [acceptDivert] at hdivert
    cases hlist : t.channelList with
    | nil =>
      rw [hlist] at hdivert
      cases hdone : t.done <;> rw [hdone] at hdivert <;> cases hdivert
    | cons c rest =>
      have hgoes : c.sessionGranted = true ∧ c.command = command := by
        rw [hlist] at hdivert
        cases hdone : t.done with
        | false =>
          rw [hdone] at hdivert
          cases hdivert
        | true =>
          rw [hdone] at hdivert
          dsimp only at hdivert
          split at hdivert
          · rename_i hscp
            cases hdivert
            exact ⟨(Bool.and_eq_true_iff.mp hscp).1, rfl⟩
          split at hdivert
          · rename_i hsftp
            cases hdivert
            exact ⟨(Bool.and_eq_true_iff.mp hsftp).1, rfl⟩
          · cases hdivert
      have hc : c ∈ t.channelList := by
        rw [hlist]
        exact List.mem_cons_self
      obtain ⟨g, hg, hserial, htype, hcommand⟩ := h.some c.session (session_mem_view hc) hgoes.1
      exact ⟨c, rfl, g, hg, hserial, htype, hcommand.trans hgoes.2⟩

/-- At most one shell, exec or subsystem is granted on a channel; a request that is not granted
leaves the sessions as they were; each request that is due a reply gets exactly one, and no other
request gets any; and the command that diverts `wolfSSH_accept` is a granted one. -/
theorem requests_settled (events : List Event) :
    (∀ t ∈ states step {} events, Sound t) ∧ ∀ p ∈ steps step {} events, Settled p.1 p.2 := by
  have hstep : ∀ s e, Inv s → True → Inv (step s e) := fun s e h _ => (h.step e).1
  have hinv : ∀ t ∈ states step {} events, Inv t := invariant hstep .start fun _ _ => trivial
  exact ⟨fun t ht => (hinv t ht).sound,
    fun p hp => ((hinv p.1 (mem_states_of_mem_steps hp)).step p.2).2⟩

def windowChangePacket : Bytes :=
  c32toa 0 ++ (c32toa 13 ++ (ascii "window-change" ++ (1 :: (c32toa 80 ++ (c32toa 24 ++
    (c32toa 0 ++ c32toa 0))))))

/-- A window-change on an open channel that asks for a reply, with nothing that could go wrong: it
gets none. -/
theorem window_change_unanswered :
    ((getRequest windowChangePacket).runAt 0).1 = .ok ⟨0, ascii "window-change", true⟩ ∧
      (step ({ : Ssh }.opened 0 7) (.request {} windowChangePacket 0)).channelList.length = 1 ∧
      (step ({ : Ssh }.opened 0 7) (.request {} windowChangePacket 0)).sent = [] := by
  decide

end WolfSsh.SessionRequest
