import WolfSsh.ChannelTable
import Mathlib.Data.List.Nodup

/-! The channel list over a whole run: its size, its ids, and whose marks the senders set. -/

namespace WolfSsh.ChannelTable

/-! Lookups and updates on the list. -/

theorem channelFind_id {id : Nat} {side : ChannelId} {s : Ssh} {c : Channel}
    (h : s.channelFind id side = some c) : c.id side = id := by
  simpa using List.find?_some h

theorem channelFind_mem {id : Nat} {side : ChannelId} {s : Ssh} {c : Channel}
    (h : s.channelFind id side = some c) : c ∈ s.channelList :=
  List.take_subset _ _ (List.mem_of_find?_eq_some h)

theorem channelFind_eq {id : Nat} {side : ChannelId} {s : Ssh}
    (hsize : s.channelListSz = s.channelList.length) :
    s.channelFind id side = s.channelList.find? fun c => c.id side = id := by
  rw [Ssh.channelFind, hsize, List.take_length]

@[simp] theorem setTxd_channel (txd : Txd) (c : Channel) : (c.setTxd txd).channel = c.channel := by
  cases txd <;> rfl

@[simp] theorem setTxd_peerChannel (txd : Txd) (c : Channel) :
    (c.setTxd txd).peerChannel = c.peerChannel := by
  cases txd <;> rfl

theorem replaceF_map {α β : Type} (g : α → β) (f : α → Option α)
    (hf : ∀ a b, f a = some b → g b = g a) (l : List α) : (l.replaceF f).map g = l.map g := by
  induction l with
  | nil => rfl
  | cons a l ih =>
    rw [List.replaceF_cons]
    cases h : f a with
    | none => rw [List.map_cons, List.map_cons, ih]
    | some b => rw [List.map_cons, List.map_cons, hf a b h]

/-- What a send leaves as it is: the ids on the list, in order, and all beside the list. -/
structure SameList (s t : Ssh) : Prop where
  ids : t.channelList.map Channel.channel = s.channelList.map Channel.channel
  size : t.channelListSz = s.channelListSz
  next : t.nextChannel = s.nextChannel
  opening : t.opening = s.opening
  hangs : t.hangs = s.hangs

namespace SameList

variable {s t u : Ssh}

theorem refl (s : Ssh) : SameList s s := ⟨rfl, rfl, rfl, rfl, rfl⟩

theorem trans (h : SameList s t) (h' : SameList t u) : SameList s u :=
  ⟨h'.ids.trans h.ids, h'.size.trans h.size, h'.next.trans h.next, h'.opening.trans h.opening,
    h'.hangs.trans h.hangs⟩

theorem update (id : Nat) (side : ChannelId) {f : Channel → Channel}
    (hf : ∀ c, (f c).channel = c.channel) (s : Ssh) : SameList s (s.update id side f) := by
  refine ⟨replaceF_map _ _ ?_ _, rfl, rfl, rfl, rfl⟩
  intro a b hb
  split at hb
  · cases hb
    exact hf a
  · cases hb

theorem length (h : SameList s t) : t.channelList.length = s.channelList.length := by
  have hids := congrArg List.length h.ids
  rwa [List.length_map, List.length_map] at hids

end SameList

/-! The calls that only send. -/

section Sends

variable (side : ChannelId) (env : CallEnv) (s : Ssh)

theorem sendChannelTxd_sameList (txd : Txd) (env : SendEnv) (id : Nat) :
    SameList s (s.sendChannelTxd side txd env id).1 := by
  rw [Ssh.sendChannelTxd]
  split
  · exact .refl s
  · split
    · exact .refl s
    · split
      · exact .refl s
      · dsimp only
        split
        · exact .update _ _ (setTxd_channel txd) s
        · exact .refl s

theorem sendChannelEof_sameList (env : SendEnv) (id : Nat) :
    SameList s (s.sendChannelEof side env id).1 := by
  rw [Ssh.sendChannelEof]
  split
  · exact .refl s
  · exact sendChannelTxd_sameList side s .eof env id

theorem sendChannelClose_sameList (env : SendEnv) (id : Nat) :
    SameList s (s.sendChannelClose side env id).1 :=
  sendChannelTxd_sameList side s .close env id

theorem andThen_sameList {next : Ssh → Ssh × Ret} {r : Ssh × Ret} (hr : SameList s r.1)
    (hnext : ∀ t, SameList t (next t).1) : SameList s (Ssh.andThen next r).1 := by
  rw [Ssh.andThen]
  split
  · exact hr.trans (hnext r.1)
  · exact hr

theorem eofThenClose_sameList (env env' : SendEnv) (id : Nat) :
    SameList s (Ssh.andThen (Ssh.sendChannelClose side env' id) (s.sendChannelEof side env id)).1 :=
  andThen_sameList s (sendChannelEof_sameList side s env id)
    fun t => sendChannelClose_sameList side t env' id

theorem streamSendEof_sameList : SameList s (s.streamSendEof side env).1 := by
  rw [Ssh.streamSendEof]
  split
  · exact .refl s
  split
  · exact .refl s
  split
  · exact .refl s
  split
  · exact .refl s
  · exact sendChannelEof_sameList side s _ _

theorem streamExit_sameList : SameList s (s.streamExit side env).1 := by
  rw [Ssh.streamExit]
  split
  · exact .refl s
  split
  · exact .refl s
  split
  · exact .refl s
  split
  · exact .refl s
  · exact eofThenClose_sameList side s _ _ _

theorem withChannel_sameList {id : Nat} {f : Channel → Ssh × Ret} (hf : ∀ c, SameList s (f c).1) :
    SameList s (s.withChannel id f).1 := by
  rw [Ssh.withChannel]
  split
  · exact .refl s
  · exact hf _

theorem channelExit_sameList (id : Nat) : SameList s (s.channelExit side env id).1 := by
  apply withChannel_sameList
  intro c
  split
  · exact .refl s
  split
  · exact .refl s
  · exact eofThenClose_sameList side s _ _ _

theorem channelSendEof_sameList (id : Nat) : SameList s (s.channelSendEof side env id).1 := by
  apply withChannel_sameList
  intro c
  split
  · exact .refl s
  split
  · exact .refl s
  split
  · exact .refl s
  · exact sendChannelEof_sameList side s _ _

theorem shutdown_sameList : SameList s (s.shutdown side env).1 := by
  rw [Ssh.shutdown]
  split
  · exact .refl s
  split
  · exact .refl s
  · have heof := fun id => sendChannelEof_sameList side s env.eof id
    dsimp only
    split
    · split
      · exact (heof _).trans (sendChannelClose_sameList side _ _ _)
      · exact heof _
    · exact heof _

theorem answerClose_sameList (c : Channel) : SameList s (s.answerClose side env c).1 := by
  rw [Ssh.answerClose]
  split
  · exact (sendChannelEof_sameList side s _ _).trans (sendChannelClose_sameList side _ _ _)
  · exact .refl s

theorem doChannelOpenConf_sameList (id peerChannelId : Nat) :
    SameList s (s.doChannelOpenConf id peerChannelId).1 := by
  rw [Ssh.doChannelOpenConf]
  split
  · exact .refl s
  · split
    · exact .refl s
    · have hpeer : ∀ c, (Ssh.updatePeer peerChannelId c).channel = c.channel := fun _ => rfl
      exact SameList.update id .self hpeer s

end Sends

/-! Whom a sender finds by the peer's id. -/

/-- No channel before `c` on the list has the peer's id of `c`. -/
def First (c : Channel) (s : Ssh) : Prop :=
  ∀ d ∈ s.channelList.takeWhile (·.channel ≠ c.channel), d.peerChannel ≠ c.peerChannel

instance (c : Channel) (s : Ssh) : Decidable (First c s) :=
  inferInstanceAs (Decidable
    (∀ d ∈ s.channelList.takeWhile (·.channel ≠ c.channel), d.peerChannel ≠ c.peerChannel))

/-- `c` is on the list, whatever its marks, and the channels before it differ from it in both
ids. -/
structure Leads (c : Channel) (s : Ssh) : Prop where
  size : s.channelListSz = s.channelList.length
  split : ∃ before d after, s.channelList = before ++ d :: after ∧ (∀ side, d.id side = c.id side) ∧
    ∀ side, ∀ b ∈ before, b.id side ≠ c.id side

section Leads

variable {s : Ssh} {c : Channel}

theorem leads_of_first (hsize : s.channelListSz = s.channelList.length) {id : Nat}
    (hfind : s.channelFind id .self = some c) (hfirst : First c s) : Leads c s := by
  have hid : c.channel = id := channelFind_id hfind
  rw [channelFind_eq hsize, List.find?_eq_some_iff_append] at hfind
  obtain ⟨-, before, after, hlist, hbefore⟩ := hfind
  have hself : ∀ b ∈ before, b.channel ≠ c.channel := by
    intro b hb
    rw [hid]
    simpa using (show (!decide (b.channel = id)) = true from hbefore b hb)
  have htake : s.channelList.takeWhile (·.channel ≠ c.channel) = before := by
    rw [hlist, List.takeWhile_append_of_pos (by simpa using hself)]
    simp
  refine ⟨hsize, before, c, after, hlist, fun _ => rfl, fun side b hb => ?_⟩
  cases side with
  | self => exact hself b hb
  | peer => exact hfirst b (by rw [htake]; exact hb)

theorem leads_head (hsize : s.channelListSz = s.channelList.length) {rest : List Channel}
    (hlist : s.channelList = c :: rest) : Leads c s :=
  ⟨hsize, [], c, rest, hlist, fun _ => rfl, by simp⟩

theorem replaceF_append_cons {p : Channel → Prop} [DecidablePred p] {f : Channel → Channel}
    {before after : List Channel} {d : Channel} (hbefore : ∀ b ∈ before, ¬ p b) (hd : p d) :
    ((before ++ d :: after).replaceF fun x => if p x then some (f x) else none) =
      before ++ f d :: after := by
  induction before with
  | nil =>
    rw [List.nil_append, List.replaceF_cons, if_pos hd]
    rfl
  | cons b before ih =>
    rw [List.cons_append, List.replaceF_cons, if_neg (hbefore b List.mem_cons_self),
      ih fun x hx => hbefore x (List.mem_cons_of_mem b hx)]
    rfl

theorem Leads.find (h : Leads c s) (side : ChannelId) :
    s.channelFind (c.id side) side = s.channelFind c.channel .self := by
  obtain ⟨before, d, after, hlist, hd, hbefore⟩ := h.split
  have hfound : ∀ side, s.channelFind (c.id side) side = some d := by
    intro side
    rw [channelFind_eq h.size, hlist, List.find?_eq_some_iff_append]
    exact ⟨decide_eq_true (hd side), before, after, rfl, fun b hb => by simpa using hbefore side b hb⟩
  exact (hfound side).trans (hfound .self).symm

theorem Leads.update_list (h : Leads c s) (f : Channel → Channel) :
    ∃ before d after, s.channelList = before ++ d :: after ∧ (∀ side, d.id side = c.id side) ∧
      (∀ side, ∀ b ∈ before, b.id side ≠ c.id side) ∧
      ∀ side, (s.update (c.id side) side f).channelList = before ++ f d :: after := by
  obtain ⟨before, d, after, hlist, hd, hbefore⟩ := h.split
  refine ⟨before, d, after, hlist, hd, hbefore, fun side => ?_⟩
  rw [Ssh.update, hlist]
  exact replaceF_append_cons (fun b hb => hbefore side b hb) (hd side)

theorem Leads.update_eq (h : Leads c s) (side : ChannelId) (f : Channel → Channel) :
    s.update (c.id side) side f = s.update c.channel .self f := by
  obtain ⟨before, d, after, -, -, -, hupdate⟩ := h.update_list f
  have hlists := (hupdate side).trans (hupdate .self).symm
  rw [Ssh.update] at hlists ⊢
  rw [Ssh.update]
  exact congrArg (fun l => { s with channelList := l }) hlists

theorem Leads.update (h : Leads c s) {f : Channel → Channel}
    (hf : ∀ c side, (f c).id side = c.id side) : Leads c (s.update c.channel .self f) := by
  obtain ⟨before, d, after, -, hd, hbefore, hupdate⟩ := h.update_list f
  have hsame := SameList.update c.channel .self (fun c => hf c .self) s
  refine ⟨hsame.size.trans (h.size.trans hsame.length.symm), before, f d, after, hupdate .self,
    fun side => (hf d side).trans (hd side), hbefore⟩

theorem setTxd_id (txd : Txd) (c : Channel) (side : ChannelId) :
    (c.setTxd txd).id side = c.id side := by
  cases side with
  | self => exact setTxd_channel txd c
  | peer => exact setTxd_peerChannel txd c

theorem Leads.sendChannelTxd (h : Leads c s) (txd : Txd) (env : SendEnv) (side : ChannelId) :
    s.sendChannelTxd side txd env (c.id side) = s.sendChannelTxd .self txd env c.channel := by
  rw [Ssh.sendChannelTxd, Ssh.sendChannelTxd, h.find side, h.update_eq side]

theorem Leads.afterTxd (h : Leads c s) (txd : Txd) (env : SendEnv) :
    Leads c (s.sendChannelTxd .self txd env c.channel).1 := by
  rw [Ssh.sendChannelTxd]
  split
  · exact h
  · split
    · exact h
    · split
      · exact h
      · dsimp only
        split
        · exact h.update (setTxd_id txd)
        · exact h

theorem Leads.sendChannelEof (h : Leads c s) (env : SendEnv) (side : ChannelId) :
    s.sendChannelEof side env (c.id side) = s.sendChannelEof .self env c.channel := by
  rw [Ssh.sendChannelEof, Ssh.sendChannelEof, h.sendChannelTxd .eof env side]

theorem Leads.afterEof (h : Leads c s) (env : SendEnv) :
    Leads c (s.sendChannelEof .self env c.channel).1 := by
  rw [Ssh.sendChannelEof]
  split
  · exact h
  · exact h.afterTxd .eof env

theorem Leads.sendChannelClose (h : Leads c s) (env : SendEnv) (side : ChannelId) :
    s.sendChannelClose side env (c.id side) = s.sendChannelClose .self env c.channel :=
  h.sendChannelTxd .close env side

theorem Leads.sendChannelRequest (h : Leads c s) (env : SendEnv) (side : ChannelId) :
    s.sendChannelRequest side env (c.id side) = s.sendChannelRequest .self env c.channel := by
  rw [Ssh.sendChannelRequest, Ssh.sendChannelRequest, h.find side]

theorem Leads.sendChannelEow (h : Leads c s) (env : SendEnv) (openSSH : Bool) (side : ChannelId) :
    s.sendChannelEow side env openSSH (c.id side) = s.sendChannelEow .self env openSSH c.channel := by
  rw [Ssh.sendChannelEow, Ssh.sendChannelEow, h.sendChannelRequest env side]

theorem Leads.eofThenClose (h : Leads c s) (env env' : SendEnv) (side : ChannelId) :
    Ssh.andThen (Ssh.sendChannelClose side env' (c.id side)) (s.sendChannelEof side env (c.id side)) =
      Ssh.andThen (Ssh.sendChannelClose .self env' c.channel)
        (s.sendChannelEof .self env c.channel) := by
  rw [h.sendChannelEof env side, Ssh.andThen, Ssh.andThen, (h.afterEof env).sendChannelClose env' side]

end Leads

/-! The list over a run. -/

structure Inv (s : Ssh) : Prop where
  size : s.channelListSz = s.channelList.length
  bound : s.channelList.length < 2 ^ 32
  next : s.nextChannel < 2 ^ 32
  distinct : ((s.channelList ++ s.opening).map Channel.channel).Nodup
  ends : s.hangs = false

theorem Inv.sameList {s t : Ssh} (h : Inv s) (hst : SameList s t) : Inv t where
  size := by rw [hst.size, hst.length, h.size]
  bound := hst.length.trans_lt h.bound
  next := hst.next.trans_lt h.next
  distinct := by
    have hdistinct := h.distinct
    rw [List.map_append] at hdistinct ⊢
    rwa [hst.ids, hst.opening]
  ends := hst.hangs.trans h.ends

theorem Inv.distinctList {s : Ssh} (h : Inv s) : (s.channelList.map Channel.channel).Nodup := by
  have hall := h.distinct
  rw [List.map_append] at hall
  exact hall.of_append_left

theorem Inv.fresh {s : Ssh} (h : Inv s) :
    ∃ id, s.freshChannel = some id ∧ id < 2 ^ 32 ∧ id ∉ s.channelList.map Channel.channel := by
  have hused : ∀ id, (s.channelFind id .self).isSome ↔ id ∈ s.channelList.map Channel.channel := by
    intro id
    rw [channelFind_eq h.size, List.find?_isSome, List.mem_map]
    exact ⟨fun ⟨c, hc, hid⟩ => ⟨c, hc, of_decide_eq_true hid⟩,
      fun ⟨c, hc, hid⟩ => ⟨c, hc, decide_eq_true hid⟩⟩
  have hsome : s.freshChannel.isSome := by
    refine FreshIds.search_isSome h.next ?_ fun id hid => (hused id).mp hid
    rw [List.length_map]
    exact h.bound
  obtain ⟨id, hid⟩ := Option.isSome_iff_exists.mp hsome
  refine ⟨id, hid, FreshIds.search_lt h.next hid, fun hmem => ?_⟩
  have hunused := FreshIds.search_unused hid
  rw [(hused id).mpr hmem] at hunused
  cases hunused

/-- What a step must meet: an id search does not come upon a channel that is still being opened, the
list does not outgrow its size, and no channel before the one that sends has its peer's id. -/
def Clean (s : Ssh) : Event → Prop
  | .openNew _ => ∀ id ∈ s.freshChannel, id ∉ s.opening.map Channel.channel
  | .openDone append => append → s.channelList.length + 1 < 2 ^ 32
  | .close _ id => ∀ c ∈ s.channelFind id .self, c.closeTxd = false → c.openConfirmed → First c s
  | .channelExit env id => ∀ c ∈ s.channelFind id .self, env.ended = false → c.openConfirmed →
      First c s
  | .channelSendEof env id => ∀ c ∈ s.channelFind id .self, env.ended = false → env.keying = false →
      c.openConfirmed → First c s
  | _ => True

theorem Inv.openNew {s : Ssh} (h : Inv s) {peer : Option Nat} (hclean : Clean s (.openNew peer)) :
    Inv (s.openNew peer) := by
  obtain ⟨id, hfresh, hlt, hnot⟩ := h.fresh
  have hopening := hclean id hfresh
  have hnew : ∀ c : Channel, c.channel = id →
      Inv { s with nextChannel := (id + 1) % 2 ^ 32, opening := c :: s.opening } := by
    intro c hc
    refine ⟨h.size, h.bound, Nat.mod_lt _ (by decide), ?_, h.ends⟩
    rw [List.map_append, List.map_cons, List.nodup_middle, List.nodup_cons,
      ← List.map_append, hc]
    refine ⟨?_, h.distinct⟩
    rw [List.map_append, List.mem_append, not_or]
    exact ⟨hnot, hopening⟩
  have hchannelNew : s.channelNew =
      { s with nextChannel := (id + 1) % 2 ^ 32, opening := { channel := id } :: s.opening } := by
    rw [Ssh.channelNew, hfresh]
  cases peer with
  | none =>
    have hopened : s.openNew none =
        { s with nextChannel := (id + 1) % 2 ^ 32, opening := { channel := id } :: s.opening } := by
      simp [Ssh.openNew, hchannelNew]
    rw [hopened]
    exact hnew { channel := id } rfl
  | some peerChannelId =>
    have hopened : s.openNew (some peerChannelId) =
        { s with
          nextChannel := (id + 1) % 2 ^ 32
          opening := Ssh.updatePeer peerChannelId { channel := id } :: s.opening } := by
      simp [Ssh.openNew, hchannelNew, h.ends]
    rw [hopened]
    exact hnew (Ssh.updatePeer peerChannelId { channel := id }) rfl

theorem Inv.openDone {s : Ssh} (h : Inv s) {append : Bool} (hclean : Clean s (.openDone append)) :
    Inv (s.openDone append) := by
  rw [Ssh.openDone]
  split
  · exact h
  · rename_i c rest hopening
    have hdistinct := h.distinct
    rw [hopening] at hdistinct
    dsimp only
    cases append with
    | false =>
      refine ⟨h.size, h.bound, h.next, hdistinct.sublist ?_, h.ends⟩
      exact ((List.sublist_cons_self c rest).append_left s.channelList).map _
    | true =>
      have hroom := hclean rfl
      have hsize := h.size
      rw [if_pos rfl, Ssh.channelAppend]
      dsimp only
      split
      · rename_i hnil
        rw [hnil] at hdistinct
        exact ⟨rfl, (show 1 < 2 ^ 32 by decide), h.next, hdistinct, h.ends⟩
      · refine ⟨?_, ?_, h.next, ?_, h.ends⟩
        · dsimp only
          rw [List.length_append, List.length_singleton, hsize, Nat.mod_eq_of_lt hroom]
        · dsimp only
          rw [List.length_append, List.length_singleton]
          exact hroom
        · dsimp only
          rw [List.append_assoc]
          exact hdistinct

theorem Inv.remove {s : Ssh} (h : Inv s) (id : Nat) : Inv (s.channelRemove id .self).1 := by
  rw [Ssh.channelRemove]
  split
  · exact h
  · rename_i c hfind
    have hmem := channelFind_mem hfind
    have hid := channelFind_id hfind
    have hlen : (s.channelList.eraseP fun c => c.id .self = id).length =
        s.channelList.length - 1 := List.length_eraseP_of_mem hmem (by simpa using hid)
    refine ⟨?_, ?_, h.next, h.distinct.sublist ?_, h.ends⟩
    · dsimp only
      rw [hlen, h.size]
    · dsimp only
      rw [hlen]
      exact Nat.lt_of_le_of_lt (Nat.sub_le _ _) h.bound
    · exact (List.eraseP_sublist.append_right s.opening).map _

theorem Inv.doChannelClose {s : Ssh} (h : Inv s) (side : ChannelId) (env : CallEnv) (id : Nat) :
    Inv (s.doChannelClose side env id).1 := by
  rw [Ssh.doChannelClose]
  split
  · exact h
  · rename_i c hfind
    have hanswered := h.sameList (answerClose_sameList side env s c)
    dsimp only
    split
    · have hremoved := hanswered.remove id
      split
      · rename_i hremove
        rwa [hremove] at hremoved
      · rename_i hremove
        rwa [hremove] at hremoved
    · exact hanswered

theorem Inv.doChannelOpenFail {s : Ssh} (h : Inv s) (callback : Ret) (id : Nat) :
    Inv (s.doChannelOpenFail callback id).1 := by
  have hremoved := h.remove id
  unfold Ssh.doChannelOpenFail
  split
  · exact h
  · split
    · exact h
    · split
      · exact h
      · split
        · rename_i hremove
          rwa [hremove] at hremoved
        · rename_i hremove
          rwa [hremove] at hremoved

theorem Inv.step {s : Ssh} {e : Event} (h : Inv s) (hclean : Clean s e) : Inv (s.step e) := by
  cases e with
  | openNew peer => exact h.openNew hclean
  | openDone append => exact h.openDone hclean
  | openConf id peerChannelId => exact h.sameList (doChannelOpenConf_sameList s id peerChannelId)
  | openFail callback id => exact h.doChannelOpenFail callback id
  | close env id => exact h.doChannelClose .peer env id
  | free id => exact h.remove id
  | streamSendEof env => exact h.sameList (streamSendEof_sameList .peer env s)
  | streamExit env => exact h.sameList (streamExit_sameList .peer env s)
  | channelExit env id => exact h.sameList (channelExit_sameList .peer env s id)
  | channelSendEof env id => exact h.sameList (channelSendEof_sameList .peer env s id)
  | shutdown env => exact h.sameList (shutdown_sameList .peer env s)

theorem inv_start : Inv {} where
  size := rfl
  bound := by decide
  next := by decide
  distinct := List.nodup_nil
  ends := rfl

/-- What holds of the channel list in a state: its size, distinct ids, a search for an id that ends,
and a removal that takes the named channel and no other. -/
structure Integrity (s : Ssh) : Prop where
  size : s.channelListSz = s.channelList.length
  distinct : (s.channelList.map Channel.channel).Nodup
  ends : s.hangs = false ∧ s.freshChannel.isSome
  removes : ∀ id, (s.channelRemove id .self).1.channelList = s.channelList.filter (·.channel ≠ id) ∧
    ((s.channelRemove id .self).2 = .ok () ↔ ∃ c ∈ s.channelList, c.channel = id)

theorem eraseP_eq_filter {l : List Channel} (h : (l.map Channel.channel).Nodup) (id : Nat) :
    (l.eraseP fun c => c.channel = id) = l.filter (·.channel ≠ id) := by
  induction l with
  | nil => rfl
  | cons c l ih =>
    rw [List.map_cons, List.nodup_cons] at h
    by_cases hc : c.channel = id
    · have hrest : ∀ d ∈ l, d.channel ≠ id := by
        intro d hd heq
        exact h.1 (List.mem_map.mpr ⟨d, hd, heq.trans hc.symm⟩)
      rw [List.eraseP_cons_of_pos (by simpa using hc),
        List.filter_cons_of_neg (by simpa using hc), List.filter_eq_self.mpr (by simpa using hrest)]
    · rw [List.eraseP_cons_of_neg (by simpa using hc),
        List.filter_cons_of_pos (by simpa using hc), ih h.2]

theorem Inv.removes {s : Ssh} (h : Inv s) (id : Nat) :
    (s.channelRemove id .self).1.channelList = s.channelList.filter (·.channel ≠ id) ∧
      ((s.channelRemove id .self).2 = .ok () ↔ ∃ c ∈ s.channelList, c.channel = id) := by
  rw [Ssh.channelRemove]
  split
  · rename_i hfind
    rw [channelFind_eq h.size, List.find?_eq_none] at hfind
    have hnone : ∀ c ∈ s.channelList, c.channel ≠ id := by
      exact fun c hc heq => hfind c hc (decide_eq_true heq)
    refine ⟨(List.filter_eq_self.mpr (by simpa using hnone)).symm, ?_⟩
    constructor
    · intro herr
      cases herr
    · rintro ⟨c, hc, heq⟩
      exact absurd heq (hnone c hc)
  · rename_i c hfind
    refine ⟨eraseP_eq_filter h.distinctList id, fun _ => ⟨c, channelFind_mem hfind, ?_⟩, fun _ => rfl⟩
    exact channelFind_id hfind

/-! A step, and the same step with senders that go by our own ids. -/

/-- The channel that a call or a handler sends for. -/
def Event.named (s : Ssh) : Event → Option Nat
  | .close _ id | .channelExit _ id | .channelSendEof _ id => some id
  | .streamSendEof _ | .streamExit _ | .shutdown _ => s.channelList.head?.map Channel.channel
  | .openNew _ | .openDone _ | .openConf _ _ | .openFail _ _ | .free _ => none

/-- A step sets `eofTxd` and `closeTxd` of the channel that it sends for and of no other, and the
marks of that channel are what keeps a message from being sent again: the step and its result are
those of senders that look the channel up by our own id, which no other channel has. -/
structure Addressed (s : Ssh) (e : Event) : Prop where
  own : s.call .peer e = s.call .self e
  marks : ∀ txd, ∀ c ∈ s.channelList, ∀ d ∈ (s.step e).channelList, d.channel = c.channel →
    d.txd txd ≠ c.txd txd → e.named s = some c.channel

section Own

variable {s : Ssh}

theorem Inv.streamSendEof_own (h : Inv s) (env : CallEnv) :
    s.streamSendEof .peer env = s.streamSendEof .self env := by
  rw [Ssh.streamSendEof, Ssh.streamSendEof]
  cases hlist : s.channelList with
  | nil => rfl
  | cons c rest =>
    dsimp only
    rw [(leads_head h.size hlist).sendChannelEof env.eof .peer]
    rfl

theorem Inv.streamExit_own (h : Inv s) (env : CallEnv) :
    s.streamExit .peer env = s.streamExit .self env := by
  rw [Ssh.streamExit, Ssh.streamExit]
  cases hlist : s.channelList with
  | nil => rfl
  | cons c rest =>
    have hleads := leads_head h.size hlist
    dsimp only
    rw [hleads.sendChannelRequest env.exit .peer, hleads.sendChannelEow env.eow _ .peer,
      hleads.eofThenClose env.eof env.close .peer]
    rfl

theorem Inv.shutdown_own (h : Inv s) (env : CallEnv) : s.shutdown .peer env = s.shutdown .self env := by
  rw [Ssh.shutdown, Ssh.shutdown]
  cases hlist : s.channelList with
  | nil => rfl
  | cons c rest =>
    have hleads := leads_head h.size hlist
    have hafter := hleads.afterEof env.eof
    dsimp only
    rw [hleads.sendChannelEof env.eof .peer, hafter.sendChannelRequest env.exit .peer, hafter.sendChannelClose env.close .peer]
    rfl

theorem Inv.channelExit_own (h : Inv s) {env : CallEnv} {id : Nat}
    (hclean : Clean s (.channelExit env id)) : s.channelExit .peer env id = s.channelExit .self env id := by
  rw [Ssh.channelExit, Ssh.channelExit, Ssh.withChannel, Ssh.withChannel]
  cases hfind : s.channelFind id .self with
  | none => rfl
  | some c =>
    dsimp only
    split
    · rfl
    · rename_i hended
      split
      · rfl
      · rename_i hconfirmed
        have hfirst := hclean c hfind (by simpa using hended) (by simpa using hconfirmed)
        exact (leads_of_first h.size hfind hfirst).eofThenClose env.eof env.close .peer

theorem Inv.channelSendEof_own (h : Inv s) {env : CallEnv} {id : Nat}
    (hclean : Clean s (.channelSendEof env id)) :
    s.channelSendEof .peer env id = s.channelSendEof .self env id := by
  rw [Ssh.channelSendEof, Ssh.channelSendEof, Ssh.withChannel, Ssh.withChannel]
  cases hfind : s.channelFind id .self with
  | none => rfl
  | some c =>
    dsimp only
    split
    · rfl
    · rename_i hended
      split
      · rfl
      · rename_i hkeying
        split
        · rfl
        · rename_i hconfirmed
          have hfirst := hclean c hfind (by simpa using hended) (by simpa using hkeying)
            (by simpa using hconfirmed)
          exact (leads_of_first h.size hfind hfirst).sendChannelEof env.eof .peer

theorem Inv.doChannelClose_own (h : Inv s) {env : CallEnv} {id : Nat}
    (hclean : Clean s (.close env id)) :
    s.doChannelClose .peer env id = s.doChannelClose .self env id := by
  rw [Ssh.doChannelClose, Ssh.doChannelClose]
  cases hfind : s.channelFind id .self with
  | none => rfl
  | some c =>
    have hanswer : s.answerClose .peer env c = s.answerClose .self env c := by
      rw [Ssh.answerClose, Ssh.answerClose]
      split
      · rename_i hanswers
        have hleads := leads_of_first h.size hfind (hclean c hfind hanswers.1 hanswers.2)
        rw [hleads.sendChannelEof env.eof .peer]
        dsimp only
        rw [(hleads.afterEof env.eof).sendChannelClose env.close .peer]
        rfl
      · rfl
    dsimp only
    rw [hanswer]

theorem Inv.own (h : Inv s) {e : Event} (hclean : Clean s e) : s.call .peer e = s.call .self e := by
  cases e with
  | close env id => exact h.doChannelClose_own hclean
  | streamSendEof env => exact h.streamSendEof_own env
  | streamExit env => exact h.streamExit_own env
  | channelExit env id => exact h.channelExit_own hclean
  | channelSendEof env id => exact h.channelSendEof_own hclean
  | shutdown env => exact h.shutdown_own env
  | openNew peer => rfl
  | openDone append => rfl
  | openConf id peerChannelId => rfl
  | openFail callback id => rfl
  | free id => rfl

end Own

/-- Channels other than `id` stay as they are, or go. -/
def Spares (id : Nat) (s t : Ssh) : Prop := ∀ d ∈ t.channelList, d.channel ≠ id → d ∈ s.channelList

section Spares

variable {s t u : Ssh} {id : Nat}

theorem Spares.refl (id : Nat) (s : Ssh) : Spares id s s := fun _ hd _ => hd

theorem Spares.trans (h : Spares id s t) (h' : Spares id t u) : Spares id s u :=
  fun d hd hne => h d (h' d hd hne) hne

theorem mem_update {side : ChannelId} {f : Channel → Channel} {d : Channel}
    (hd : d ∈ (s.update id side f).channelList) :
    d ∈ s.channelList ∨ ∃ c ∈ s.channelList, c.id side = id ∧ d = f c := by
  rcases List.exists_or_eq_self_of_replaceF
    (fun c : Channel => if c.id side = id then some (f c) else none) s.channelList with
    hsame | ⟨c, c', before, after, -, hc, hlist, hreplaced⟩
  · rw [Ssh.update, hsame] at hd
    exact .inl hd
  · rw [Ssh.update, hreplaced, List.mem_append, List.mem_cons] at hd
    by_cases hid : c.id side = id
    · rw [if_pos hid] at hc
      rw [hlist]
      rcases hd with hbefore | rfl | hafter
      · exact .inl (List.mem_append_left _ hbefore)
      · exact .inr ⟨c, by simp, hid, (Option.some.inj hc).symm⟩
      · exact .inl (List.mem_append_right _ (List.mem_cons_of_mem c hafter))
    · rw [if_neg hid] at hc
      cases hc

theorem sendChannelTxd_spares (txd : Txd) (env : SendEnv) (id : Nat) (s : Ssh) :
    Spares id s (s.sendChannelTxd .self txd env id).1 := by
  rw [Ssh.sendChannelTxd]
  split
  · exact .refl id s
  · split
    · exact .refl id s
    · split
      · exact .refl id s
      · dsimp only
        split
        · intro d hd hne
          rcases mem_update hd with hmem | ⟨c, -, hid, rfl⟩
          · exact hmem
          · exact absurd ((setTxd_channel txd c).trans hid) hne
        · exact .refl id s

theorem sendChannelEof_spares (env : SendEnv) (id : Nat) (s : Ssh) :
    Spares id s (s.sendChannelEof .self env id).1 := by
  rw [Ssh.sendChannelEof]
  split
  · exact .refl id s
  · exact sendChannelTxd_spares .eof env id s

theorem sendChannelClose_spares (env : SendEnv) (id : Nat) (s : Ssh) :
    Spares id s (s.sendChannelClose .self env id).1 :=
  sendChannelTxd_spares .close env id s

theorem eofThenClose_spares (env env' : SendEnv) (id : Nat) (s : Ssh) :
    Spares id s (Ssh.andThen (Ssh.sendChannelClose .self env' id)
      (s.sendChannelEof .self env id)).1 := by
  have heof := sendChannelEof_spares env id s
  rw [Ssh.andThen]
  split
  · exact heof.trans (sendChannelClose_spares env' id _)
  · exact heof

theorem remove_subset (id : Nat) (side : ChannelId) (s : Ssh) :
    (s.channelRemove id side).1.channelList ⊆ s.channelList := by
  rw [Ssh.channelRemove]
  split
  · exact fun _ hd => hd
  · exact List.eraseP_subset

theorem doChannelOpenFail_subset (callback : Ret) (id : Nat) (s : Ssh) :
    (s.doChannelOpenFail callback id).1.channelList ⊆ s.channelList := by
  have hremove := remove_subset id .self s
  unfold Ssh.doChannelOpenFail
  split
  · exact fun _ hd => hd
  split
  · exact fun _ hd => hd
  split
  · exact fun _ hd => hd
  · split
    · rename_i hok
      rwa [hok] at hremove
    · rename_i herror
      rwa [herror] at hremove

theorem doChannelClose_spares (env : CallEnv) (id : Nat) (s : Ssh) :
    Spares id s (s.doChannelClose .self env id).1 := by
  rw [Ssh.doChannelClose]
  split
  · exact .refl id s
  · rename_i c hfind
    have hid : c.channel = id := channelFind_id hfind
    have hanswer : Spares id s (s.answerClose .self env c).1 := by
      rw [Ssh.answerClose]
      split
      · have heof := sendChannelEof_spares env.eof c.channel s
        have hclose := heof.trans (sendChannelClose_spares env.close c.channel _)
        rw [hid] at hclose
        rw [← hid] at hclose ⊢
        exact hclose
      · exact .refl id s
    have hremove := fun t => remove_subset id .self t
    dsimp only
    split
    · have hgone : Spares id s ((s.answerClose .self env c).1.channelRemove id .self).1 :=
        fun d hd hne => hanswer d (hremove _ hd) hne
      split
      · rename_i hok
        rwa [hok] at hgone
      · rename_i herror
        rwa [herror] at hgone
    · exact hanswer

theorem head_spares {c : Channel} {rest : List Channel} (hlist : s.channelList = c :: rest)
    (env : CallEnv) : Spares c.channel s (s.streamSendEof .self env).1 ∧
      Spares c.channel s (s.streamExit .self env).1 ∧ Spares c.channel s (s.shutdown .self env).1 := by
  have heof := sendChannelEof_spares env.eof c.channel s
  have hboth := eofThenClose_spares env.eof env.close c.channel s
  rw [Ssh.streamSendEof, Ssh.streamExit, Ssh.shutdown, hlist]
  dsimp only
  refine ⟨?_, ?_, ?_⟩
  · split
    · exact .refl _ s
    split
    · exact .refl _ s
    split
    · exact .refl _ s
    · exact heof
  · split
    · exact .refl _ s
    split
    · exact .refl _ s
    split
    · exact .refl _ s
    · exact hboth
  · split
    · exact .refl _ s
    split
    · split
      · exact heof.trans (sendChannelClose_spares env.close c.channel _)
      · exact heof
    · exact heof

end Spares

/-- Each channel after the step has the marks of one before it with its id, or a new id, or is the
one that the step sends for. -/
def Marked (s t : Ssh) (named : Option Nat) : Prop :=
  ∀ d ∈ t.channelList, (∃ c ∈ s.channelList, c.channel = d.channel ∧ ∀ txd, c.txd txd = d.txd txd) ∨
    (∀ c ∈ s.channelList, c.channel ≠ d.channel) ∨ named = some d.channel

section Marked

variable {s t : Ssh}

theorem marked_of_subset (h : t.channelList ⊆ s.channelList) (named : Option Nat) : Marked s t named :=
  fun d hd => .inl ⟨d, h hd, rfl, fun _ => rfl⟩

theorem Spares.marked {id : Nat} (h : Spares id s t) : Marked s t (some id) := by
  intro d hd
  by_cases hid : d.channel = id
  · exact .inr (.inr (congrArg some hid.symm))
  · exact .inl ⟨d, h d hd hid, rfl, fun _ => rfl⟩

theorem withChannel_spares {id : Nat} {f : Channel → Ssh × Ret}
    (hf : ∀ c, c.channel = id → Spares id s (f c).1) : Spares id s (s.withChannel id f).1 := by
  rw [Ssh.withChannel]
  split
  · exact .refl id s
  · rename_i c hfind
    exact hf c (channelFind_id hfind)

theorem channelExit_spares (env : CallEnv) (id : Nat) (s : Ssh) :
    Spares id s (s.channelExit .self env id).1 := by
  apply withChannel_spares
  rintro c rfl
  split
  · exact .refl _ s
  split
  · exact .refl _ s
  · exact eofThenClose_spares env.eof env.close c.channel s

theorem channelSendEof_spares (env : CallEnv) (id : Nat) (s : Ssh) :
    Spares id s (s.channelSendEof .self env id).1 := by
  apply withChannel_spares
  rintro c rfl
  split
  · exact .refl _ s
  split
  · exact .refl _ s
  split
  · exact .refl _ s
  · exact sendChannelEof_spares env.eof c.channel s

theorem Inv.openNew_list (h : Inv s) (peer : Option Nat) :
    (s.openNew peer).channelList = s.channelList := by
  obtain ⟨id, hfresh, -, -⟩ := h.fresh
  have hnew : s.channelNew =
      { s with nextChannel := (id + 1) % 2 ^ 32, opening := { channel := id } :: s.opening } := by
    rw [Ssh.channelNew, hfresh]
  cases peer with
  | none => simp [Ssh.openNew, hnew]
  | some peerChannelId => simp [Ssh.openNew, hnew, h.ends]

theorem Inv.openDone_marked (h : Inv s) (append : Bool) (named : Option Nat) :
    Marked s (s.openDone append) named := by
  rw [Ssh.openDone]
  split
  · exact marked_of_subset (fun _ hd => hd) named
  · rename_i c rest hopening
    have hnew : ∀ b ∈ s.channelList, b.channel ≠ c.channel := by
      have hdistinct := h.distinct
      rw [hopening, List.map_append, List.map_cons] at hdistinct
      intro b hb heq
      exact hdistinct.disjoint (List.mem_map_of_mem hb) (heq ▸ List.mem_cons_self)
    cases append with
    | false => exact marked_of_subset (fun _ hd => hd) named
    | true =>
      intro d hd
      have hmem : d ∈ s.channelList ∨ d = c := by
        dsimp only at hd
        rw [if_pos rfl, Ssh.channelAppend] at hd
        split at hd
        · exact .inr (List.mem_singleton.mp hd)
        · simpa [List.mem_append] using hd
      rcases hmem with hmem | rfl
      · exact .inl ⟨d, hmem, rfl, fun _ => rfl⟩
      · exact .inr (.inl hnew)

theorem doChannelOpenConf_marked (id peerChannelId : Nat) (named : Option Nat) :
    Marked s (s.doChannelOpenConf id peerChannelId).1 named := by
  have hsame := marked_of_subset (fun _ hd => hd : s.channelList ⊆ s.channelList) named
  rw [Ssh.doChannelOpenConf]
  split
  · exact hsame
  · split
    · exact hsame
    · intro d hd
      rcases mem_update hd with hmem | ⟨c, hc, -, rfl⟩
      · exact .inl ⟨d, hmem, rfl, fun _ => rfl⟩
      · refine .inl ⟨c, hc, rfl, fun txd => ?_⟩
        cases txd <;> rfl

theorem Inv.marked (h : Inv s) (e : Event) : Marked s (s.call .self e).1 (e.named s) := by
  have hhead : ∀ f : Ssh → Ssh × Ret, (s.channelList = [] → (f s).1 = s) →
      (∀ c rest, s.channelList = c :: rest → Spares c.channel s (f s).1) →
      Marked s (f s).1 (s.channelList.head?.map Channel.channel) := by
    intro f hnil hcons
    cases hlist : s.channelList with
    | nil =>
      rw [hnil hlist]
      exact marked_of_subset (fun _ hd => hd) _
    | cons c rest => exact (hcons c rest hlist).marked
  cases e with
  | openNew peer =>
    refine marked_of_subset ?_ _
    rw [Ssh.call, h.openNew_list peer]
    exact fun _ hd => hd
  | openDone append => exact h.openDone_marked append _
  | openConf id peerChannelId => exact doChannelOpenConf_marked id peerChannelId _
  | openFail callback id => exact marked_of_subset (doChannelOpenFail_subset callback id s) _
  | close env id => exact (doChannelClose_spares env id s).marked
  | free id => exact marked_of_subset (remove_subset id .self s) _
  | streamSendEof env =>
    refine hhead (Ssh.streamSendEof .self env) ?_ fun c rest hlist => (head_spares hlist env).1
    intro hnil
    rw [Ssh.streamSendEof, hnil]
    split <;> rfl
  | streamExit env =>
    refine hhead (Ssh.streamExit .self env) ?_ fun c rest hlist => (head_spares hlist env).2.1
    intro hnil
    rw [Ssh.streamExit, hnil]
    split <;> rfl
  | channelExit env id => exact (channelExit_spares env id s).marked
  | channelSendEof env id => exact (channelSendEof_spares env id s).marked
  | shutdown env =>
    refine hhead (Ssh.shutdown .self env) ?_ fun c rest hlist => (head_spares hlist env).2.2
    intro hnil
    rw [Ssh.shutdown, hnil]

end Marked

theorem Inv.addressed {s : Ssh} (h : Inv s) {e : Event} (hclean : Clean s e) : Addressed s e where
  own := h.own hclean
  marks := by
    intro txd c hc d hd hid hne
    rw [Ssh.step, h.own hclean] at hd
    rcases h.marked e d hd with ⟨b, hb, hbid, hmarks⟩ | hnew | hnamed
    · have hsame := List.inj_on_of_nodup_map h.distinctList hb hc (hbid.trans hid)
      rw [hsame] at hmarks
      exact absurd (hmarks txd).symm hne
    · exact absurd hid.symm (hnew c hc)
    · rw [hnamed, hid]

instance (s : Ssh) (e : Event) : Decidable (Clean s e) :=
  match e with
  | .openNew _ => inferInstanceAs
      (Decidable (∀ id ∈ s.freshChannel, id ∉ s.opening.map Channel.channel))
  | .openDone append => inferInstanceAs
      (Decidable (append → s.channelList.length + 1 < 2 ^ 32))
  | .close _ id => inferInstanceAs
      (Decidable (∀ c ∈ s.channelFind id .self, c.closeTxd = false → c.openConfirmed → First c s))
  | .channelExit env id => inferInstanceAs
      (Decidable (∀ c ∈ s.channelFind id .self, env.ended = false → c.openConfirmed → First c s))
  | .channelSendEof env id => inferInstanceAs
      (Decidable (∀ c ∈ s.channelFind id .self, env.ended = false → env.keying = false →
        c.openConfirmed → First c s))
  | .openConf _ _ | .openFail _ _ | .free _ | .streamSendEof _ | .streamExit _ | .shutdown _ =>
    inferInstanceAs (Decidable True)

/-- Two channels that the peer opens under the ids `first` and `second`, and an exit on the later. -/
def twoChannels (first second : Nat) : List Event :=
  [ .openNew (some first), .openDone true, .openNew (some second), .openDone true,
    .channelExit {} 1 ]

end WolfSsh.ChannelTable
