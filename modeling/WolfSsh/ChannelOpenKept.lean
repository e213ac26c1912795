import WolfSsh.ChannelOpen

/-! Every channel that is open on the wire has its channel, in every run whose opens put their channel
on the list once they are bundled. -/

namespace WolfSsh.ChannelOpen

open ChannelTable (Ssh Channel ChannelId CallEnv Ret SameList)

/-! The list of the channels, which `ChannelTable.Inv` speaks of. -/

section Table

variable {s t : Ssh}

theorem listed_same (hst : SameList s t) : listed t = listed s := hst.ids

theorem opening_same (hst : SameList s t) : opening t = opening s := by
  rw [opening, hst.opening, opening]

/-- The channel that `ChannelNew` makes, confirmed at once if the peer opens it. -/
def newChannel (id : Nat) : Option Nat → Channel
  | none => { channel := id }
  | some peerChannelId => Ssh.updatePeer peerChannelId { channel := id }

theorem newChannel_channel (id : Nat) (peer : Option Nat) : (newChannel id peer).channel = id := by
  cases peer <;> rfl

theorem openNew_eq {id : Nat} (hfresh : s.freshChannel = some id) (hhangs : s.hangs = false)
    (peer : Option Nat) : s.openNew peer =
      { s with nextChannel := (id + 1) % 2 ^ 32, opening := newChannel id peer :: s.opening } := by
  have hnew : s.channelNew =
      { s with nextChannel := (id + 1) % 2 ^ 32, opening := { channel := id } :: s.opening } := by
    rw [Ssh.channelNew, hfresh]
  cases peer with
  | none => simp [Ssh.openNew, hnew, newChannel]
  | some peerChannelId => simp [Ssh.openNew, hnew, newChannel, hhangs]

theorem openDone_cons {c : Channel} {rest : List Channel} (hopening : s.opening = c :: rest)
    (append : Bool) : s.openDone append =
      if append then Ssh.channelAppend c { s with opening := rest } else { s with opening := rest } := by
  rw [Ssh.openDone, hopening]

theorem channelRemove_opening (id : Nat) (side : ChannelId) (s : Ssh) :
    (s.channelRemove id side).1.opening = s.opening := by
  rw [Ssh.channelRemove]
  split <;> rfl

theorem find_listed (h : ChannelTable.Inv s) {id : Nat} (hid : id ∈ listed s) :
    ∃ c, s.channelFind id .self = some c ∧ c.channel = id := by
  have hsize : s.channelListSz = s.channelList.length := h.size
  obtain ⟨c, hc, hcid⟩ := List.mem_map.mp hid
  have hsome : (s.channelFind id .self).isSome := by
    rw [ChannelTable.channelFind_eq hsize, List.find?_isSome]
    exact ⟨c, hc, decide_eq_true hcid⟩
  obtain ⟨d, hd⟩ := Option.isSome_iff_exists.mp hsome
  exact ⟨d, hd, ChannelTable.channelFind_id hd⟩

theorem opening_disjoint (h : ChannelTable.Inv s) {id : Nat} (hid : id ∈ opening s) : id ∉ listed s := by
  have hdistinct : ((s.channelList ++ s.opening).map Channel.channel).Nodup := h.distinct
  rw [List.map_append] at hdistinct
  exact fun hlist => hdistinct.disjoint hlist hid

end Table

/-! One step of the list: the ids stay, or one of them is removed. -/

/-- The ids on the list but for `id`, which may be gone. -/
structure Drops (id : Nat) (s t : Ssh) : Prop where
  table : ChannelTable.Inv t
  openingEq : opening t = opening s
  stays : ∀ other ∈ listed s, other ≠ id → other ∈ listed t
  known : ∀ other ∈ listed t, other ∈ listed s

section Drops

variable {s t : Ssh} {id : Nat}

theorem drops_same (h : ChannelTable.Inv s) (hst : SameList s t) (id : Nat) : Drops id s t where
  table := h.sameList hst
  openingEq := opening_same hst
  stays := by
    intro other hother _
    rw [listed_same hst]
    exact hother
  known := by
    intro other hother
    rw [listed_same hst] at hother
    exact hother

theorem drops_remove (h : ChannelTable.Inv s) (id : Nat) : Drops id s (s.channelRemove id .self).1 := by
  have hlist := (h.removes id).1
  refine ⟨h.remove id, by rw [opening, channelRemove_opening, opening], ?_, ?_⟩
  · intro other hother hne
    obtain ⟨c, hc, rfl⟩ := List.mem_map.mp hother
    rw [listed, hlist]
    exact List.mem_map.mpr ⟨c, List.mem_filter.mpr ⟨hc, by simpa using hne⟩, rfl⟩
  · intro other hother
    rw [listed, hlist] at hother
    obtain ⟨c, hc, rfl⟩ := List.mem_map.mp hother
    exact List.mem_map.mpr ⟨c, List.mem_of_mem_filter hc, rfl⟩

theorem Drops.trans {u : Ssh} (h : Drops id s t) (h' : Drops id t u) : Drops id s u where
  table := h'.table
  openingEq := h'.openingEq.trans h.openingEq
  stays := fun other hother hne => h'.stays other (h.stays other hother hne) hne
  known := fun other hother => h.known other (h'.known other hother)

theorem drops_fail (h : ChannelTable.Inv s) (callback : Ret) (id : Nat) :
    Drops id s (s.doChannelOpenFail callback id).1 := by
  have hremove := drops_remove h id
  unfold Ssh.doChannelOpenFail
  split
  · exact drops_same h (.refl s) id
  split
  · exact drops_same h (.refl s) id
  split
  · exact drops_same h (.refl s) id
  · split
    · rename_i hok
      rw [hok] at hremove
      exact hremove
    · rename_i herror
      rw [herror] at hremove
      exact hremove

theorem drops_close (h : ChannelTable.Inv s) (env : CallEnv) (id : Nat) :
    Drops id s (s.doChannelClose .peer env id).1 := by
  rw [Ssh.doChannelClose]
  split
  · exact drops_same h (.refl s) id
  · rename_i c hfind
    have hanswer := drops_same h (ChannelTable.answerClose_sameList .peer env s c) id
    have hremove := hanswer.trans (drops_remove hanswer.table id)
    dsimp only
    split
    · split
      · rename_i hok
        rw [hok] at hremove
        exact hremove
      · rename_i herror
        rw [herror] at hremove
        exact hremove
    · exact hanswer

end Drops

/-! The whole session. -/

structure Inv (s : Session) : Prop where
  table : ChannelTable.Inv s.ssh
  calls : s.calls.map Call.phase = (opening s.ssh).map s.phase
  found : ∀ id, s.phase id = .waiting ∨ s.phase id = .confirmed →
    id ∈ listed s.ssh ∨ id ∈ opening s.ssh
  bundled : ∀ id ∈ listed s.ssh, s.phase id ≠ .unsent

section Session

variable {s : Session}

theorem Inv.kept (h : Inv s) : Kept s where
  found := h.found
  answered := by
    intro id hwaiting hopening peerChannelId
    obtain ⟨c, hfind, hid⟩ := find_listed h.table ((h.found id (Or.inl hwaiting)).resolve_right hopening)
    have hremoved := (h.table.removes id).2.mpr ⟨c, ChannelTable.channelFind_mem hfind, hid⟩
    constructor
    · rw [Ssh.doChannelOpenConf, hfind]
      dsimp only
      split
      · rintro ⟨⟩
      · rintro ⟨⟩
    · unfold Ssh.doChannelOpenFail
      rw [hfind]
      dsimp only
      split
      · rintro ⟨⟩
      · split
        · rintro ⟨⟩
        · rename_i herror
          rw [herror] at hremoved
          cases hremoved
  bundled := h.bundled

/-- A step that changes the phase of `id` alone, and drops no channel but that of `id`. -/
theorem Inv.drops (h : Inv s) {t : Ssh} {id : Nat} (hdrops : Drops id s.ssh t)
    {phase : Nat → Phase} (hother : ∀ other, other ≠ id → phase other = s.phase other)
    (hid : phase id = .waiting ∨ phase id = .confirmed → id ∈ listed t ∨ id ∈ opening t)
    (hopening : id ∈ opening s.ssh → phase id = s.phase id)
    (hunsent : id ∈ listed t → phase id ≠ .unsent) :
    Inv { s with ssh := t, phase := phase } := by
  refine ⟨hdrops.table, ?_, ?_, ?_⟩
  · dsimp only
    rw [h.calls, hdrops.openingEq]
    apply List.map_congr_left
    intro other hmem
    by_cases hne : other = id
    · rw [hne] at hmem ⊢
      exact (hopening hmem).symm
    · exact (hother other hne).symm
  · intro other hphase
    by_cases hne : other = id
    · rw [hne] at hphase ⊢
      exact hid hphase
    · dsimp only at hphase ⊢
      rw [hother other hne] at hphase
      rw [hdrops.openingEq]
      exact (h.found other hphase).imp_left fun hmem => hdrops.stays other hmem hne
  · intro other hmem
    by_cases hne : other = id
    · rw [hne] at hmem ⊢
      exact hunsent hmem
    · dsimp only
      rw [hother other hne]
      exact h.bundled other (hdrops.known other hmem)

theorem Inv.sends (h : Inv s) {t : Ssh} (hst : SameList s.ssh t) : Inv { s with ssh := t } := by
  have hlisted := listed_same hst
  have hopening := opening_same hst
  refine ⟨h.table.sameList hst, ?_, ?_, ?_⟩
  · dsimp only
    rw [hopening]
    exact h.calls
  · dsimp only
    rw [hlisted, hopening]
    exact h.found
  · dsimp only
    rw [hlisted]
    exact h.bundled

theorem Inv.openBegin (h : Inv s) {call : Call} (hs : Faithful s (.openBegin call)) :
    Inv (s.openBegin call) := by
  obtain ⟨id, hfresh, -, hnot⟩ := h.table.fresh
  have hnew : id ∉ opening s.ssh := hs id hfresh
  have htable := @ChannelTable.Inv.openNew s.ssh h.table (Session.peer call.opener) hs
  rw [Session.openBegin, hfresh]
  rw [openNew_eq hfresh h.table.ends] at htable ⊢
  have hopens : opening { s.ssh with
      nextChannel := (id + 1) % 2 ^ 32,
      opening := newChannel id (Session.peer call.opener) :: s.ssh.opening } =
      id :: opening s.ssh := by
    rw [opening, List.map_cons, newChannel_channel, opening]
  have hself : Function.update s.phase id call.phase id = call.phase := Function.update_self ..
  have hother : ∀ other, other ≠ id →
      Function.update s.phase id call.phase other = s.phase other :=
    fun other hne => Function.update_of_ne hne _ _
  refine ⟨htable, ?_, ?_, ?_⟩
  · dsimp only [Session.setPhase]
    rw [hopens, List.map_cons, List.map_cons, hself, h.calls]
    congr 1
    apply List.map_congr_left
    intro other hmem
    exact (hother other fun heq => hnew (heq ▸ hmem)).symm
  · intro other hphase
    dsimp only [Session.setPhase] at hphase ⊢
    rw [hopens]
    by_cases hne : other = id
    · exact Or.inr (hne ▸ List.mem_cons_self)
    · rw [hother other hne] at hphase
      exact (h.found other hphase).imp_right (List.mem_cons_of_mem _)
  · intro other hmem
    dsimp only [Session.setPhase] at hmem ⊢
    rw [hother other fun heq => hnot (heq ▸ hmem)]
    exact h.bundled other hmem

theorem phase_of_appends {call : Call} {r : Ending} (happends : call.appends r = true) :
    call.phase ≠ .unsent := by
  obtain ⟨opener, bundle⟩ := call
  cases bundle with
  | none => cases opener <;> exact nofun
  | some e =>
    have hnever : ∀ ret : Ret, ret = .ok () ∨ ret = .error .wantWrite ∨ ret = .error .wantRead →
        ret ≠ .error e.val := by
      rintro _ (rfl | rfl | rfl) heq
      · cases heq
      · exact e.property.1 (Except.error.inj heq).symm
      · exact e.property.2 (Except.error.inj heq).symm
    cases opener with
    | connect => exact absurd rfl (hnever _ (of_decide_eq_true happends))
    | fwdNewLocal => exact absurd rfl (hnever _ (Or.inl (of_decide_eq_true happends)))
    | fwdNewRemote =>
      have hsent : Call.sendChannelOpen ⟨.fwdNewRemote, some e⟩ r = .ok () ∧ r.fwdCb = .ok () :=
        of_decide_eq_true happends
      exact absurd rfl (hnever _ (Or.inl hsent.1))
    | agent => cases happends
    | doChannelOpen peerChannelId => exact nofun

theorem appends_of_delivered {call : Call} {r : Ending} (hwaiting : call.phase = .waiting)
    (hdelivered : call.bundle = none → Delivered r call.opener) : call.appends r = true := by
  obtain ⟨opener, bundle⟩ := call
  cases bundle with
  | some e => cases opener <;> cases hwaiting
  | none =>
    have h := hdelivered rfl
    cases opener with
    | connect =>
      rcases h with ⟨hflush, hhighwater⟩ | hflush | hflush
      · exact decide_eq_true (by rwa [Call.sendChannelOpen, Ending.sendPacket, hflush])
      · exact decide_eq_true (by rw [Call.sendChannelOpen, Ending.sendPacket, hflush]; simp)
      · exact decide_eq_true (by rw [Call.sendChannelOpen, Ending.sendPacket, hflush]; simp)
    | fwdNewLocal =>
      exact decide_eq_true (by rw [Call.sendChannelOpen, Ending.sendPacket, h.1]; exact h.2)
    | fwdNewRemote =>
      refine decide_eq_true ⟨?_, h.2.2⟩
      rw [Call.sendChannelOpen, Ending.sendPacket, h.1]
      exact h.2.1
    | agent =>
      rcases h with hflush | hflush
      · simp [Call.appends, Ending.sendPacketDelivered, hflush]
      · simp [Call.appends, Ending.sendPacketDelivered, Ending.sendPacket, hflush]
    | doChannelOpen peerChannelId => cases hwaiting

theorem listed_append (c : Channel) (t : Ssh) :
    listed (Ssh.channelAppend c t) = listed t ++ [c.channel] := by
  rw [Ssh.channelAppend]
  split
  · rename_i hnil
    rw [listed, listed, hnil]
    rfl
  · rw [listed, listed, List.map_append]
    rfl

theorem opening_append (c : Channel) (t : Ssh) : opening (Ssh.channelAppend c t) = opening t := by
  rw [Ssh.channelAppend]
  split <;> rfl

theorem Inv.openEnd (h : Inv s) {r : Ending} (hs : Faithful s (.openEnd r)) :
    Inv (s.openEnd r) := by
  rw [Session.openEnd]
  have hmap := h.calls
  cases hcalls : s.calls with
  | nil => exact h
  | cons call calls =>
    obtain ⟨hroom, hdelivered⟩ := hs call (by rw [hcalls]; rfl)
    rw [hcalls] at hmap
    cases hopening : s.ssh.opening with
    | nil =>
      rw [opening, hopening] at hmap
      cases hmap
    | cons c rest =>
      have hfits : ChannelTable.Clean s.ssh (.openDone (call.appends r)) := fun _ => hroom
      have htable := h.table.openDone hfits
      have hphase : call.phase = s.phase c.channel ∧
          calls.map Call.phase = (rest.map Channel.channel).map s.phase := by
        rw [opening, hopening, List.map_cons, List.map_cons, List.map_cons, List.cons.injEq] at hmap
        exact hmap
      have hcons : opening s.ssh = c.channel :: rest.map Channel.channel := by
        rw [opening, hopening, List.map_cons]
      dsimp only
      rw [openDone_cons hopening] at htable ⊢
      by_cases happends : call.appends r = true
      · rw [if_pos happends] at htable ⊢
        have hopens := opening_append c { s.ssh with opening := rest }
        have hlists := listed_append c { s.ssh with opening := rest }
        refine ⟨htable, ?_, ?_, ?_⟩
        · dsimp only
          rw [hopens]
          exact hphase.2
        · intro other hother
          dsimp only
          rw [hopens, hlists, List.mem_append, List.mem_singleton]
          have hfound := h.found other hother
          rw [hcons, List.mem_cons] at hfound
          rcases hfound with hlist | hhead | hrest
          · exact Or.inl (Or.inl hlist)
          · exact Or.inl (Or.inr hhead)
          · exact Or.inr hrest
        · intro other hother
          dsimp only at hother ⊢
          rw [hlists, List.mem_append, List.mem_singleton] at hother
          rcases hother with hlist | hhead
          · exact h.bundled other hlist
          · rw [hhead, ← hphase.1]
            exact phase_of_appends happends
      · rw [if_neg happends] at htable ⊢
        refine ⟨htable, hphase.2, ?_, h.bundled⟩
        intro other hother
        have hfound := h.found other hother
        rw [hcons, List.mem_cons] at hfound
        rcases hfound with hlist | hhead | hrest
        · exact Or.inl hlist
        · have hwaiting : call.phase = .waiting := by
            dsimp only at hother
            rw [hhead, ← hphase.1] at hother
            rcases hother with hwaiting | hconfirmed
            · exact hwaiting
            · exact absurd hconfirmed (by
                obtain ⟨opener, bundle⟩ := call
                cases opener <;> cases bundle <;> exact nofun)
          exact absurd (appends_of_delivered hwaiting hdelivered) happends
        · exact Or.inr hrest

theorem update_ne (phase : Nat → Phase) (id : Nat) (after : Phase) :
    ∀ other, other ≠ id → Function.update phase id after other = phase other :=
  fun _ hne => Function.update_of_ne hne _ _

theorem Inv.openConf (h : Inv s) {id peerChannelId : Nat}
    (hs : Faithful s (.openConf id peerChannelId)) : Inv (s.step (.openConf id peerChannelId)) := by
  have hsame := ChannelTable.doChannelOpenConf_sameList s.ssh id peerChannelId
  have hnot : id ∉ opening s.ssh := hs
  rw [Session.step, Session.moves]
  split
  · rename_i hwaiting
    rw [List.mem_singleton] at hwaiting
    have hlisted := (h.found id (Or.inl hwaiting)).resolve_right hnot
    refine h.drops (drops_same h.table hsame id) (update_ne s.phase id .confirmed) ?_
      (fun hmem => absurd hmem hnot) ?_
    · intro _
      rw [listed_same hsame]
      exact Or.inl hlisted
    · intro _
      rw [Function.update_self]
      exact nofun
  · exact h.sends hsame

theorem Inv.openFail (h : Inv s) {callback : Ret} {id : Nat}
    (hs : Faithful s (.openFail callback id)) : Inv (s.step (.openFail callback id)) := by
  have hdrops := drops_fail h.table callback id
  have hnot : id ∉ opening s.ssh := hs
  rw [Session.step, Session.moves]
  split
  · refine h.drops hdrops (update_ne s.phase id .ended) ?_ (fun hmem => absurd hmem hnot) ?_
    · rw [Function.update_self]
      rintro (hphase | hphase) <;> cases hphase
    · intro _
      rw [Function.update_self]
      exact nofun
  · rename_i hphase
    refine h.drops hdrops (fun _ _ => rfl) ?_ (fun _ => rfl) ?_
    · intro hopen
      exact absurd (by simpa using hopen) hphase
    · exact fun hmem => h.bundled id (hdrops.known id hmem)

theorem Inv.close (h : Inv s) {env : CallEnv} {id : Nat} (hs : Faithful s (.close env id)) :
    Inv (s.step (.close env id)) := by
  have hdrops := drops_close h.table env id
  obtain ⟨hnot, hwaiting⟩ := hs
  rw [Session.step, Session.moves]
  split
  · refine h.drops hdrops (update_ne s.phase id .ended) ?_ (fun hmem => absurd hmem hnot) ?_
    · rw [Function.update_self]
      rintro (hphase | hphase) <;> cases hphase
    · intro _
      rw [Function.update_self]
      exact nofun
  · rename_i hphase
    refine h.drops hdrops (fun _ _ => rfl) ?_ (fun _ => rfl) ?_
    · intro hopen
      exact absurd (List.mem_singleton.mpr (hopen.resolve_left hwaiting)) hphase
    · exact fun hmem => h.bundled id (hdrops.known id hmem)

theorem Inv.free (h : Inv s) (id : Nat) : Inv (s.free id) := by
  have hdrops := drops_remove h.table id
  have hok := (h.table.removes id).2
  rw [Session.free]
  cases hremove : s.ssh.channelRemove id .self with
  | mk t ret =>
    rw [hremove] at hdrops hok
    cases ret with
    | error e => exact h
    | ok =>
      obtain ⟨c, hc, hid⟩ := hok.mp rfl
      have hlisted : id ∈ listed s.ssh := List.mem_map.mpr ⟨c, hc, hid⟩
      refine h.drops hdrops (update_ne s.phase id .ended) ?_
        (fun hmem => absurd hlisted (opening_disjoint h.table hmem)) ?_
      · rw [Function.update_self]
        rintro (hphase | hphase) <;> cases hphase
      · intro _
        rw [Function.update_self]
        exact nofun

theorem Inv.step (h : Inv s) {e : Event} (hs : Faithful s e) : Inv (s.step e) := by
  cases e with
  | openBegin call => exact h.openBegin hs
  | openEnd r => exact h.openEnd hs
  | openConf id peerChannelId => exact h.openConf hs
  | openFail callback id => exact h.openFail hs
  | close env id => exact h.close hs
  | free id => exact h.free id
  | streamSendEof env => exact h.sends (ChannelTable.streamSendEof_sameList .peer env s.ssh)
  | streamExit env => exact h.sends (ChannelTable.streamExit_sameList .peer env s.ssh)
  | channelExit env id => exact h.sends (ChannelTable.channelExit_sameList .peer env s.ssh id)
  | channelSendEof env id => exact h.sends (ChannelTable.channelSendEof_sameList .peer env s.ssh id)
  | shutdown env => exact h.sends (ChannelTable.shutdown_sameList .peer env s.ssh)

theorem inv_start : Inv {} where
  table := ChannelTable.inv_start
  calls := rfl
  found := by
    rintro id (hphase | hphase) <;> cases hphase
  bundled := nofun

instance (r : Ending) (opener : Opener) : Decidable (Delivered r opener) := by
  cases opener <;> unfold Delivered <;> infer_instance

instance (s : Session) (e : Event) : Decidable (Faithful s e) :=
  match e with
  | .openBegin _ => inferInstanceAs (Decidable (∀ id ∈ s.ssh.freshChannel, id ∉ opening s.ssh))
  | .openEnd r => inferInstanceAs (Decidable (∀ call ∈ s.calls.head?,
      s.ssh.channelList.length + 1 < 2 ^ 32 ∧ (call.bundle = none → Delivered r call.opener)))
  | .openConf id _ => inferInstanceAs (Decidable (id ∉ opening s.ssh))
  | .openFail _ id => inferInstanceAs (Decidable (id ∉ opening s.ssh))
  | .close _ id => inferInstanceAs (Decidable (id ∉ opening s.ssh ∧ s.phase id ≠ .waiting))
  | .free _ | .streamSendEof _ | .streamExit _ | .channelExit _ _ | .channelSendEof _ _
  | .shutdown _ => inferInstanceAs (Decidable True)

/-- A forward that the client opens, with the results of the send. -/
def forwardOpen (r : Ending) : List Event :=
  [.openBegin { opener := .fwdNewLocal }, .openEnd r]

end Session

end WolfSsh.ChannelOpen
