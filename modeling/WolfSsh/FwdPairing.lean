import WolfSsh.FwdRemote
import WolfSsh.Lib.Runs

/-! The queue of the remote forwards holds one slot for each want-reply request that is on its way to
the peer and not answered yet, in the order of the wire, and nothing names a registration that was
freed. -/

namespace WolfSsh.FwdRemote

namespace Ssh

def queueIds (ssh : Ssh) : List Nat := ssh.fwdReply.map Reply.id

/-- A registration that the list, a queued slot or a request in flight points to. -/
inductive Names (ssh : Ssh) : Nat → Prop where
  | list {e : Nat} (h : e ∈ ssh.fwdRemoteList) : Names ssh e
  | reply {r : Reply} {e : Nat} (h : r ∈ ssh.fwdReply) (he : r.entry = some e) : Names ssh e
  | entry {p : Pending} {e : Nat} (h : p ∈ ssh.fwdPending) (he : p.entry = some e) : Names ssh e
  | found {p : Pending} {e : Nat} (h : p ∈ ssh.fwdPending) (he : p.found = some e) : Names ssh e

/-- The queue as its count and its tail pointer have it. -/
structure Queued (ssh : Ssh) : Prop where
  count : ssh.fwdReplyCount = ssh.queueIds.length
  cap : ssh.fwdReplyCount ≤ maxFwdReplies
  tail : ssh.fwdReplyTail = ssh.queueIds.getLast?
  once : ssh.queueIds.Nodup
  fresh : ∀ i ∈ ssh.queueIds, i < ssh.next
  parked : ∀ r ∈ ssh.parked, r.id < ssh.next

structure Pointers (ssh : Ssh) : Prop where
  once : ssh.fwdRemoteList.Nodup
  alive : ∀ e, ssh.Names e → (ssh.heap e).isSome
  fresh : ∀ i, ssh.next ≤ i → ssh.heap i = none

/-- The queue keeps its slots and their order. -/
structure SameQueue (a b : Ssh) : Prop where
  parked : b.parked ⊆ a.parked
  ids : b.queueIds = a.queueIds
  tail : b.fwdReplyTail = a.fwdReplyTail
  count : b.fwdReplyCount = a.fwdReplyCount
  next : b.next = a.next

variable {a b c ssh : Ssh}

theorem SameQueue.refl (ssh : Ssh) : SameQueue ssh ssh := ⟨List.Subset.refl _, rfl, rfl, rfl, rfl⟩

theorem SameQueue.trans (hab : SameQueue a b) (hbc : SameQueue b c) : SameQueue a c :=
  ⟨List.Subset.trans hbc.parked hab.parked, hbc.ids.trans hab.ids, hbc.tail.trans hab.tail, hbc.count.trans hab.count,
    hbc.next.trans hab.next⟩

theorem Queued.same (h : Queued a) (hab : SameQueue a b) : Queued b where
  count := by rw [hab.count, hab.ids, h.count]
  cap := by rw [hab.count]; exact h.cap
  tail := by rw [hab.tail, hab.ids, h.tail]
  once := by rw [hab.ids]; exact h.once
  fresh := by rw [hab.ids, hab.next]; exact h.fresh
  parked r hr := by rw [hab.next]; exact h.parked r (hab.parked hr)

theorem Pointers.lt_next (h : Pointers ssh) {e : Nat} (he : (ssh.heap e).isSome) : e < ssh.next := by
  by_contra hlt
  rw [h.fresh e (Nat.le_of_not_lt hlt)] at he
  cases he

/-! Each operation on the registrations. -/

theorem map_ids {f : Reply → Reply} (hf : ∀ r, (f r).id = r.id) (l : List Reply) :
    (l.map f).map Reply.id = l.map Reply.id := by
  rw [List.map_map]
  exact List.map_congr_left fun r _ => hf r

theorem fwdReplyVoid_same (entry : Nat) (ssh : Ssh) : SameQueue ssh (ssh.fwdReplyVoid entry) := by
  refine ⟨List.Subset.refl _, map_ids (fun r => ?_) _, rfl, rfl, rfl⟩
  split <;> rfl

theorem fwdReplyRebind_same (stale entry : Nat) (ssh : Ssh) :
    SameQueue ssh (ssh.fwdReplyRebind stale entry) := by
  refine ⟨List.Subset.refl _, map_ids (fun r => ?_) _, rfl, rfl, rfl⟩
  split <;> rfl

theorem fwdRemoteUnlink_same (entry : Nat) (ssh : Ssh) :
    SameQueue ssh (ssh.fwdRemoteUnlink entry) := by
  obtain ⟨parked, ids, tail, count, next⟩ :=
    fwdReplyVoid_same entry { ssh with fwdRemoteList := ssh.fwdRemoteList.erase entry }
  exact ⟨parked, ids, tail, count, next⟩

theorem setRemote_same (entry : Nat) (f : Remote → Remote) (ssh : Ssh) :
    SameQueue ssh (ssh.setRemote entry f) := ⟨List.Subset.refl _, rfl, rfl, rfl, rfl⟩

theorem fwdPendingRebind_same (stale entry : Nat) (ssh : Ssh) :
    SameQueue ssh (ssh.fwdPendingRebind stale entry) := ⟨List.Subset.refl _, rfl, rfl, rfl, rfl⟩

theorem fwdRemoteUnlink_heap {entry e : Nat} (hne : e ≠ entry) :
    (ssh.fwdRemoteUnlink entry).heap e = ssh.heap e := if_neg hne

/-- What is named after a registration is unlinked was named before, and is not that one. -/
theorem Names.of_unlink {entry e : Nat} (hlist : ssh.fwdRemoteList.Nodup)
    (h : (ssh.fwdRemoteUnlink entry).Names e) : ssh.Names e ∧ e ≠ entry := by
  cases h with
  | list h =>
    have hmem := (hlist.mem_erase_iff).mp h
    exact ⟨.list hmem.2, hmem.1⟩
  | reply h he =>
    obtain ⟨r, hr, rfl⟩ := List.mem_map.mp h
    split at he
    · cases he
    · rename_i hne
      refine ⟨.reply hr he, ?_⟩
      rintro rfl
      exact hne he
  | entry h he =>
    obtain ⟨p, hp, rfl⟩ := List.mem_map.mp h
    dsimp only at he
    split at he
    · cases he
    · rename_i hne
      refine ⟨.entry hp he, ?_⟩
      rintro rfl
      exact hne he
  | found h he =>
    obtain ⟨p, hp, rfl⟩ := List.mem_map.mp h
    dsimp only at he
    split at he
    · cases he
    · rename_i hne
      refine ⟨.found hp he, ?_⟩
      rintro rfl
      exact hne he

namespace Pointers

theorem fwdRemoteUnlink (h : Pointers ssh) (entry : Nat) : Pointers (ssh.fwdRemoteUnlink entry) where
  once := h.once.erase entry
  alive e he := by
    obtain ⟨hnames, hne⟩ := he.of_unlink h.once
    have halive := h.alive e hnames
    rw [fwdRemoteUnlink_heap hne]
    exact halive
  fresh i hi := by
    have hnone := h.fresh i hi
    rw [Ssh.fwdRemoteUnlink]
    dsimp only
    split
    · rfl
    · exact hnone

theorem setRemote (h : Pointers ssh) (entry : Nat) (f : Remote → Remote) :
    Pointers (ssh.setRemote entry f) where
  once := h.once
  alive e he := by
    have halive := h.alive e (by cases he with
      | list h => exact .list h
      | reply h he => exact .reply h he
      | entry h he => exact .entry h he
      | found h he => exact .found h he)
    rw [Ssh.setRemote]
    dsimp only
    split
    · rw [Option.isSome_map]
      exact halive
    · exact halive
  fresh i hi := by
    have hnone := h.fresh i hi
    rw [Ssh.setRemote]
    dsimp only
    split
    · rw [hnone, Option.map_none]
    · exact hnone

theorem fwdReplyVoid (h : Pointers ssh) (entry : Nat) : Pointers (ssh.fwdReplyVoid entry) where
  once := h.once
  alive e he := h.alive e (by
    cases he with
    | list h => exact .list h
    | reply h he =>
      obtain ⟨r, hr, rfl⟩ := List.mem_map.mp h
      split at he
      · cases he
      · exact .reply hr he
    | entry h he => exact .entry h he
    | found h he => exact .found h he)
  fresh := h.fresh

theorem fwdReplyRebind (h : Pointers ssh) (stale : Nat) {entry : Nat}
    (halive : (ssh.heap entry).isSome) : Pointers (ssh.fwdReplyRebind stale entry) where
  once := h.once
  alive e he := by
    cases he with
    | list he => exact h.alive e (.list he)
    | reply hmem he =>
      obtain ⟨r, hr, rfl⟩ := List.mem_map.mp hmem
      split at he
      · obtain rfl := Option.some.inj he
        exact halive
      · exact h.alive e (.reply hr he)
    | entry hp he => exact h.alive e (.entry hp he)
    | found hp he => exact h.alive e (.found hp he)
  fresh := h.fresh

theorem fwdPendingRebind (h : Pointers ssh) (stale : Nat) {entry : Nat}
    (halive : (ssh.heap entry).isSome) : Pointers (ssh.fwdPendingRebind stale entry) where
  once := h.once
  alive e he := by
    cases he with
    | list he => exact h.alive e (.list he)
    | reply hr he => exact h.alive e (.reply hr he)
    | entry hmem he =>
      obtain ⟨p, hp, rfl⟩ := List.mem_map.mp hmem
      exact h.alive e (.entry hp he)
    | found hmem he =>
      obtain ⟨p, hp, rfl⟩ := List.mem_map.mp hmem
      dsimp only at he
      split at he
      · obtain rfl := Option.some.inj he
        exact halive
      · exact h.alive e (.found hp he)
  fresh := h.fresh

end Pointers

/-- No request in flight points to a registration. -/
def Idle (ssh : Ssh) : Prop := ∀ p ∈ ssh.fwdPending, p.entry = none ∧ p.found = none

/-- A step of the settling of answers: it keeps the queue, and no pointer dangles after it. -/
structure Settles (a b : Ssh) : Prop where
  same : SameQueue a b
  pointers : Pointers a → Pointers b
  idle : Idle a → Idle b

theorem Settles.refl (ssh : Ssh) : Settles ssh ssh := ⟨.refl ssh, id, id⟩

theorem Settles.trans (hab : Settles a b) (hbc : Settles b c) : Settles a c :=
  ⟨hab.same.trans hbc.same, fun h => hbc.pointers (hab.pointers h), fun h => hbc.idle (hab.idle h)⟩

theorem fwdRemoteUnlink_idle (h : Idle ssh) (entry : Nat) : Idle (ssh.fwdRemoteUnlink entry) := by
  intro p hp
  obtain ⟨q, hq, rfl⟩ := List.mem_map.mp hp
  obtain ⟨hentry, hfound⟩ := h q hq
  dsimp only
  rw [hentry, hfound]
  exact ⟨rfl, rfl⟩

theorem fwdPendingRebind_idle (h : Idle ssh) (stale entry : Nat) :
    Idle (ssh.fwdPendingRebind stale entry) := by
  intro p hp
  obtain ⟨q, hq, rfl⟩ := List.mem_map.mp hp
  obtain ⟨hentry, hfound⟩ := h q hq
  dsimp only
  rw [hfound]
  exact ⟨hentry, rfl⟩

theorem fwdRemoteUnlink_settles (entry : Nat) (ssh : Ssh) :
    Settles ssh (ssh.fwdRemoteUnlink entry) :=
  ⟨fwdRemoteUnlink_same entry ssh, fun h => h.fwdRemoteUnlink entry,
    fun h => fwdRemoteUnlink_idle h entry⟩

theorem setRemote_settles (entry : Nat) (f : Remote → Remote) (ssh : Ssh) :
    Settles ssh (ssh.setRemote entry f) :=
  ⟨setRemote_same entry f ssh, fun h => h.setRemote entry f, id⟩

theorem fwdReplyRebind_settles (stale : Nat) {entry : Nat} (halive : (ssh.heap entry).isSome) :
    Settles ssh (ssh.fwdReplyRebind stale entry) :=
  ⟨fwdReplyRebind_same stale entry ssh, fun h => h.fwdReplyRebind stale halive, id⟩

theorem fwdPendingRebind_settles (stale : Nat) {entry : Nat} (halive : (ssh.heap entry).isSome) :
    Settles ssh (ssh.fwdPendingRebind stale entry) :=
  ⟨fwdPendingRebind_same stale entry ssh, fun h => h.fwdPendingRebind stale halive,
    fun h => fwdPendingRebind_idle h stale entry⟩

theorem setRemote_alive {entry : Nat} (f : Remote → Remote) (h : (ssh.heap entry).isSome) :
    ((ssh.setRemote entry f).heap entry).isSome := by
  rw [setRemote]
  simpa only [if_true, Option.isSome_map] using h

theorem fwdRemoteUnlink_alive {entry dup : Nat} (hne : dup ≠ entry) (h : (ssh.heap entry).isSome) :
    ((ssh.fwdRemoteUnlink dup).heap entry).isSome := by
  rw [fwdRemoteUnlink_heap hne.symm]
  exact h

theorem foldDuplicates_settles {entry : Nat} (bindAddr : Bytes) (bindPort : Nat)
    (halive : (ssh.heap entry).isSome) : Settles ssh (ssh.foldDuplicates entry bindAddr bindPort) := by
  rw [foldDuplicates]
  generalize ssh.fwdRemoteList = dups
  induction dups generalizing ssh with
  | nil => exact .refl ssh
  | cons dup dups ih =>
    rw [List.foldl_cons]
    split
    · rename_i hdup
      have hrebind : ((((ssh.fwdReplyRebind dup entry).fwdPendingRebind dup entry).fwdRemoteUnlink
          dup).heap entry).isSome := fwdRemoteUnlink_alive hdup.1 halive
      have hstep : Settles ssh
          (((ssh.fwdReplyRebind dup entry).fwdPendingRebind dup entry).fwdRemoteUnlink dup) :=
        ((fwdReplyRebind_settles dup halive).trans (fwdPendingRebind_settles dup halive)).trans
          (fwdRemoteUnlink_settles dup _)
      exact hstep.trans (ih hrebind)
    · exact ih halive

theorem fwdRemoteSettle_settles (entry : Option Nat) (isCancel success : Bool) (port : Nat)
    (ssh : Ssh) : Settles ssh (ssh.fwdRemoteSettle entry isCancel success port) := by
  cases entry with
  | none => exact .refl ssh
  | some e =>
    rw [fwdRemoteSettle]
    split
    · split
      · split
        · exact fwdRemoteUnlink_settles e ssh
        · exact .refl ssh
      · split
        · exact setRemote_settles e _ ssh
        · exact fwdRemoteUnlink_settles e ssh
    · split
      · split
        · exact fwdRemoteUnlink_settles e ssh
        · exact .refl ssh
      · split
        · exact .refl ssh
        · rename_i r hr
          have halive : (ssh.heap e).isSome := by rw [hr]; rfl
          split
          · split
            · exact fwdRemoteUnlink_settles e ssh
            · have hport := setRemote_settles e
                (fun r => { r with bindPort := port, portPending := false }) ssh
              have hfold := foldDuplicates_settles r.bindAddr port
                (setRemote_alive (fun r => { r with bindPort := port, portPending := false }) halive)
              exact (hport.trans hfold).trans (setRemote_settles e _ _)
          · exact setRemote_settles e _ ssh

/-! To take a slot at the end of the queue and to give it back. -/

theorem enqueue_fwdReply (h : Queued ssh) (reply : Reply) :
    (ssh.enqueue reply).fwdReply = ssh.fwdReply ++ [reply] := by
  have htail := h.tail
  have honce := h.once
  rw [queueIds] at htail honce
  rw [enqueue]
  dsimp only
  rcases List.eq_nil_or_concat ssh.fwdReply with hnil | ⟨l, r, hl⟩
  · rw [hnil] at htail ⊢
    rw [htail]
    rfl
  · rw [List.concat_eq_append] at hl
    rw [hl, List.map_append, List.map_singleton] at htail honce
    rw [List.getLast?_append, List.getLast?_singleton, Option.some_or] at htail
    have hne : ∀ x ∈ l, x.id ≠ r.id := fun x hx heq =>
      (List.nodup_append.mp honce).2.2 x.id (List.mem_map_of_mem hx) r.id
        (List.mem_singleton_self _) heq
    rw [htail, hl]
    dsimp only
    rw [List.takeWhile_append_of_pos (by simpa using hne), List.find?_append,
      List.find?_eq_none.mpr (by simpa using hne)]
    simp

theorem enqueue_queued (h : Queued ssh) (hcap : ssh.fwdReplyCount < maxFwdReplies) {reply : Reply}
    (hid : reply.id = ssh.next) : Queued { ssh.enqueue reply with next := ssh.next + 1 } := by
  have hids : ({ ssh.enqueue reply with next := ssh.next + 1 } : Ssh).queueIds =
      ssh.queueIds ++ [ssh.next] := by
    rw [queueIds, queueIds]
    dsimp only
    rw [enqueue_fwdReply h, List.map_append, List.map_singleton, hid]
  refine ⟨?_, hcap, ?_, ?_, ?_, fun r hr => Nat.lt_succ_of_lt (h.parked r hr)⟩
  · rw [hids, List.length_append, ← h.count]
    rfl
  · rw [hids, List.getLast?_append, List.getLast?_singleton, Option.some_or, ← hid]
    rfl
  · rw [hids]
    refine List.nodup_append.mpr ⟨h.once, by simp, ?_⟩
    intro i hi j hj
    rw [List.mem_singleton] at hj
    have hlt := h.fresh i hi
    omega
  · rw [hids]
    intro i hi
    dsimp only
    rw [List.mem_append, List.mem_singleton] at hi
    rcases hi with hi | rfl
    · exact Nat.lt_succ_of_lt (h.fresh i hi)
    · exact Nat.lt_succ_self _

theorem unqueue_enqueue (h : Queued ssh) (reply : Reply) (hid : reply.id = ssh.next) (n : Nat) :
    ({ ssh.enqueue reply with next := n } : Ssh).fwdReplyUnqueue reply.id = { ssh with next := n } := by
  have hne : ∀ r ∈ ssh.fwdReply, r.id ≠ reply.id := by
    intro r hr
    have hlt := h.fresh r.id (List.mem_map_of_mem hr)
    omega
  have hreply : ({ ssh.enqueue reply with next := n } : Ssh).fwdReply = ssh.fwdReply ++ [reply] :=
    enqueue_fwdReply h reply
  have herase : (ssh.fwdReply ++ [reply]).eraseP (fun r => r.id == reply.id) = ssh.fwdReply := by
    rw [List.eraseP_append_right _ (by simpa using hne)]
    simp
  have htake : (ssh.fwdReply ++ [reply]).takeWhile (fun r => r.id != reply.id) = ssh.fwdReply := by
    rw [List.takeWhile_append_of_pos (by simpa using hne)]
    simp
  rw [fwdReplyUnqueue, hreply, if_pos (by simp), herase, htake]
  have htail : ssh.fwdReply.getLast?.map Reply.id = ssh.fwdReplyTail := by
    rw [h.tail, queueIds, List.getLast?_map]
  simp only [enqueue, if_true, htail, Nat.add_sub_cancel]

/-! What a request prepares, and what it gives back. -/

theorem fwdRemoteUnlink_unnamed {e : Nat} (h : ¬ ssh.Names e) :
    ssh.fwdRemoteUnlink e = { ssh with heap := fun i => if i = e then none else ssh.heap i } := by
  have hlist : ssh.fwdRemoteList.erase e = ssh.fwdRemoteList :=
    List.erase_of_not_mem fun hmem => h (.list hmem)
  have hreply : (ssh.fwdReply.map fun r =>
      if r.entry = some e then { r with entry := none } else r) = ssh.fwdReply := by
    refine (List.map_congr_left fun r hr => if_neg fun he => h (.reply hr he)).trans ?_
    exact List.map_id _
  have hpending : (ssh.fwdPending.map fun p =>
      { p with
        entry := if p.entry = some e then none else p.entry
        found := if p.found = some e then none else p.found }) = ssh.fwdPending := by
    refine (List.map_congr_left (g := id) fun p hp => ?_).trans (List.map_id _)
    rw [if_neg fun he => h (.entry hp he), if_neg fun he => h (.found hp he)]
    rfl
  rw [fwdRemoteUnlink, fwdReplyVoid, fwdPendingVoid]
  dsimp only
  rw [hlist, hreply, hpending]

theorem unlink_new {e : Nat} {r : Remote} (h : ¬ ssh.Names e) (hnone : a.heap e = none)
    (hheap : ∀ i, ssh.heap i = if i = e then some r else a.heap i) :
    ssh.fwdRemoteUnlink e = { ssh with heap := a.heap } := by
  rw [fwdRemoteUnlink_unnamed h]
  have hrestored : (fun i => if i = e then none else ssh.heap i) = a.heap := by
    funext i
    by_cases hi : i = e
    · rw [if_pos hi, hi, hnone]
    · rw [if_neg hi, hheap, if_neg hi]
  rw [hrestored]

theorem Pointers.unnamed (h : Pointers ssh) {e : Nat} (he : ssh.next ≤ e) : ¬ ssh.Names e := by
  intro hnames
  have halive := h.alive e hnames
  rw [h.fresh e he] at halive
  cases halive

theorem Names.of_enqueue {reply : Reply} {n e : Nat} (hq : Queued ssh) (hentry : reply.entry = none)
    (h : ({ ssh.enqueue reply with next := n } : Ssh).Names e) : ssh.Names e := by
  cases h with
  | list h => exact .list h
  | reply h he =>
    have hmem : _ ∈ (ssh.enqueue reply).fwdReply := h
    rw [enqueue_fwdReply hq, List.mem_append, List.mem_singleton] at hmem
    rcases hmem with hmem | rfl
    · exact .reply hmem he
    · rw [hentry] at he
      cases he
  | entry h he => exact .entry h he
  | found h he => exact .found h he

theorem Names.of_new {bindAddr : Bytes} {bindPort e : Nat}
    (h : (ssh.fwdRemoteNew bindAddr bindPort).Names e) : ssh.Names e := by
  cases h with
  | list h => exact .list h
  | reply h he => exact .reply h he
  | entry h he => exact .entry h he
  | found h he => exact .found h he

theorem fwdReplyNew_queued (h : Queued ssh) (hcap : ssh.fwdReplyCount < maxFwdReplies)
    (isCancel : Bool) (bindAddr : Option Bytes) (bindPort : Nat) :
    Queued (ssh.fwdReplyNew isCancel bindAddr bindPort) := enqueue_queued h hcap rfl

theorem fwdReplyNew_ids (h : Queued ssh) (isCancel : Bool) (bindAddr : Option Bytes)
    (bindPort : Nat) :
    (ssh.fwdReplyNew isCancel bindAddr bindPort).queueIds = ssh.queueIds ++ [ssh.next] := by
  have hreply : (ssh.fwdReplyNew isCancel bindAddr bindPort).fwdReply =
      ssh.fwdReply ++ [ssh.newReply isCancel bindAddr bindPort] := enqueue_fwdReply h _
  rw [queueIds, hreply, List.map_append]
  rfl

theorem fwdReplyNew_pointers (hq : Queued ssh) (h : Pointers ssh) (isCancel : Bool)
    (bindAddr : Option Bytes) (bindPort : Nat) :
    Pointers (ssh.fwdReplyNew isCancel bindAddr bindPort) where
  once := h.once
  alive e he := h.alive e (Names.of_enqueue hq rfl he)
  fresh i hi := h.fresh i (Nat.le_of_succ_le hi)

theorem fwdRemoteNew_heap {bindAddr : Bytes} {bindPort e : Nat} (h : Pointers ssh)
    (he : (ssh.heap e).isSome) : (ssh.fwdRemoteNew bindAddr bindPort).heap e = ssh.heap e :=
  if_neg (h.lt_next he).ne

theorem fwdRemoteNew_pointers (h : Pointers ssh) (bindAddr : Bytes) (bindPort : Nat) :
    Pointers (ssh.fwdRemoteNew bindAddr bindPort) where
  once := h.once
  alive e he := by
    have halive := h.alive e he.of_new
    rw [fwdRemoteNew_heap h halive]
    exact halive
  fresh i hi := by
    have hne : i ≠ ssh.next := by
      intro heq
      rw [fwdRemoteNew] at hi
      dsimp only at hi
      omega
    exact (if_neg hne).trans (h.fresh i (Nat.le_of_succ_le hi))

theorem fwdPendingPush_pointers {pend : Pending} {n : Nat} (h : Pointers ssh) (hn : ssh.next ≤ n)
    (hentry : ∀ e ∈ pend.entry, (ssh.heap e).isSome) (hfound : ∀ e ∈ pend.found, (ssh.heap e).isSome) :
    Pointers ({ ssh with next := n }.fwdPendingPush pend) where
  once := h.once
  alive e he := by
    cases he with
    | list he => exact h.alive e (.list he)
    | reply hr he => exact h.alive e (.reply hr he)
    | entry hp he =>
      rcases List.mem_cons.mp hp with rfl | hp
      · exact hentry e he
      · exact h.alive e (.entry hp he)
    | found hp he =>
      rcases List.mem_cons.mp hp with rfl | hp
      · exact hfound e he
      · exact h.alive e (.found hp he)
  fresh i hi := h.fresh i (hn.trans hi)

theorem Queued.push {pend : Pending} {n : Nat} (h : Queued ssh) (hn : ssh.next ≤ n) :
    Queued ({ ssh with next := n }.fwdPendingPush pend) where
  count := h.count
  cap := h.cap
  tail := h.tail
  once := h.once
  fresh i hi := (h.fresh i hi).trans_le hn
  parked r hr := (h.parked r hr).trans_le hn

theorem fwdPendingPop_push (pend : Pending) (ssh : Ssh) :
    (ssh.fwdPendingPush pend).fwdPendingPop pend.id = ssh := by
  rw [fwdPendingPop, fwdPendingPush]
  simp

/-- What a request prepared: a slot at the end of the queue if it wants a reply, and a registration
that is not linked yet if it is the first for its bind. To discard it restores the session. -/
structure Prepared (a b : Ssh) (pend : Pending) : Prop where
  queued : Queued b
  pointers : Pointers b
  ids : b.queueIds = a.queueIds ++ pend.reply.toList
  reply : ∀ i ∈ pend.reply, a.next ≤ i ∧ i < b.next
  next : a.next ≤ b.next
  pending : b.fwdPending = pend :: a.fwdPending
  unlinked : ∀ e ∈ pend.entry, e ∉ b.fwdRemoteList
  discard : b.fwdPendingDiscard pend = { a with next := b.next }

theorem discard_push (pend : Pending) (ssh : Ssh) :
    (ssh.fwdPendingPush pend).fwdPendingDiscard pend =
      (ssh.discardEntry pend.entry).discardReply pend.reply := by
  rw [fwdPendingDiscard, fwdPendingPop_push]

theorem Queued.not_parked (h : Queued ssh) {i : Nat} (hi : ssh.next ≤ i) :
    (ssh.parked.any fun r => r.id == i) = false := by
  rw [List.any_eq_false]
  intro r hr
  have hlt := h.parked r hr
  simp only [beq_iff_eq]
  omega

theorem discard_reply (ssh : Ssh) (h : Queued ssh) (isCancel : Bool) (bindAddr : Option Bytes) (bindPort n : Nat) :
    ({ ssh.fwdReplyNew isCancel bindAddr bindPort with next := n } : Ssh).discardReply ssh.next =
      { ssh with next := n } := by
  have hparked : ¬ (ssh.parked.any fun r => r.id == ssh.next) := by
    rw [h.not_parked (Nat.le_refl _)]
    decide
  exact (if_neg hparked).trans
    (unqueue_enqueue h (ssh.newReply isCancel bindAddr bindPort) rfl n)

theorem find_alive (h : Pointers ssh) {bindAddr : Bytes} {bindPort e : Nat}
    (he : (ssh.fwdRemoteFind bindAddr bindPort).or (ssh.fwdPendingFind bindAddr bindPort) = some e) :
    (ssh.heap e).isSome := by
  rcases Option.or_eq_some_iff.mp he with he | ⟨-, he⟩
  · exact h.alive e (.list (List.mem_of_find?_eq_some he))
  · obtain ⟨p, hp, hentry⟩ := List.mem_filterMap.mp (List.mem_of_find?_eq_some he)
    exact h.alive e (.entry hp hentry)

theorem fwdReplyPrepare_prepared (hq : Queued a) (hp : Pointers a) {alloc : Alloc} {pend : Pending}
    (h : a.fwdReplyPrepare alloc = .ok (b, pend)) : Prepared a b pend := by
  rw [fwdReplyPrepare] at h
  split at h
  · cases h
  · rename_i hcap
    split at h
    · cases h
    · obtain ⟨rfl, rfl⟩ := Prod.mk.inj (Except.ok.inj h)
      have hreply := fwdReplyNew_queued hq (Nat.lt_of_not_le hcap) false none 0
      have hpointers := fwdReplyNew_pointers hq hp false none 0
      refine ⟨hreply.push (Nat.le_succ _), ?_, fwdReplyNew_ids hq false none 0, ?_, ?_, rfl, nofun, ?_⟩
      · exact fwdPendingPush_pointers hpointers (Nat.le_succ _) nofun nofun
      · rintro i ⟨⟩
        exact ⟨Nat.le_refl _, by change a.next < a.next + 1 + 1; omega⟩
      · change a.next ≤ a.next + 1 + 1
        omega
      · rw [discard_push]
        exact discard_reply a hq false none 0 _

/-- A new registration that nothing names yet, or none. -/
structure Registered (a c : Ssh) (entry : Option Nat) : Prop where
  eq : c = { a with heap := c.heap, next := c.next }
  next : a.next ≤ c.next
  pointers : Pointers c
  alive : ∀ e ∈ entry, (c.heap e).isSome
  unnamed : ∀ e ∈ entry, ¬ c.Names e
  none : entry = none → c.heap = a.heap
  some : ∀ e ∈ entry, a.heap e = .none ∧ ∃ r, ∀ i, c.heap i = if i = e then .some r else a.heap i

theorem registered_new (h : Pointers a) (bindAddr : Bytes) (bindPort : Nat) :
    Registered a (a.fwdRemoteNew bindAddr bindPort) (some a.next) := by
  have hunnamed := h.unnamed (Nat.le_refl _)
  refine ⟨rfl, Nat.le_succ _, fwdRemoteNew_pointers h bindAddr bindPort, ?_, ?_, nofun, ?_⟩
  · rintro e ⟨⟩
    rw [fwdRemoteNew]
    simp
  · rintro e ⟨⟩ hnames
    exact hunnamed hnames.of_new
  · rintro e ⟨⟩
    exact ⟨h.fresh _ (Nat.le_refl _), _, fun _ => rfl⟩

theorem registered_none (h : Pointers a) : Registered a a none :=
  ⟨rfl, Nat.le_refl _, h, nofun, nofun, fun _ => rfl, nofun⟩

theorem Registered.queued {entry : Option Nat} (h : Registered a c entry) (hq : Queued a) :
    Queued c := by
  rw [h.eq]
  exact ⟨hq.count, hq.cap, hq.tail, hq.once, fun i hi => (hq.fresh i hi).trans_le h.next,
    fun r hr => (hq.parked r hr).trans_le h.next⟩

theorem Registered.unlink {entry : Option Nat} (h : Registered a c entry) (ssh : Ssh) (hheap : ssh.heap = c.heap)
    (hnames : ∀ e, ssh.Names e → c.Names e) :
    ssh.discardEntry entry = { ssh with heap := a.heap } := by
  cases entry with
  | none =>
    rw [← h.none rfl, ← hheap]
    rfl
  | some e =>
    obtain ⟨hnone, r, hr⟩ := h.some e rfl
    exact unlink_new (fun hn => h.unnamed e rfl (hnames e hn)) hnone (by rw [hheap]; exact hr)

theorem Registered.prepared {entry : Option Nat} (h : Registered a c entry) (hq : Queued a)
    {found : Option Nat} {wantReply isCancel : Bool} {bindAddr : Option Bytes} {bindPort : Nat}
    (hcap : wantReply → a.fwdReplyCount < maxFwdReplies)
    (hfound : ∀ e ∈ found, (c.heap e).isSome) :
    let d := if wantReply then c.fwdReplyNew isCancel bindAddr bindPort else c
    let pend := Pending.mk d.next entry found (if wantReply then .some c.next else .none) isCancel
    Prepared a ({ d with next := d.next + 1 }.fwdPendingPush pend) pend := by
  have hcq := h.queued hq
  have hcount : c.fwdReplyCount = a.fwdReplyCount := by rw [h.eq]
  have hids : c.queueIds = a.queueIds := by rw [h.eq]; rfl
  have hpending : c.fwdPending = a.fwdPending := by rw [h.eq]
  have hlist : ∀ e ∈ entry, e ∉ c.fwdRemoteList := fun e he hmem => h.unnamed e he (.list hmem)
  cases wantReply with
  | false =>
    simp only [Bool.false_eq_true, if_false]
    refine ⟨hcq.push (Nat.le_succ _), ?_, ?_, nofun, ?_, ?_, hlist, ?_⟩
    · exact fwdPendingPush_pointers h.pointers (Nat.le_succ _) h.alive hfound
    · exact hids.trans (List.append_nil _).symm
    · exact h.next.trans (Nat.le_succ _)
    · exact congrArg _ hpending
    · have hnames : ∀ e, ({ c with next := c.next + 1 } : Ssh).Names e → c.Names e := fun e he => by
        cases he with
        | list h => exact .list h
        | reply h he => exact .reply h he
        | entry h he => exact .entry h he
        | found h he => exact .found h he
      have hunlink := h.unlink { c with next := c.next + 1 } rfl hnames
      rw [discard_push]
      refine hunlink.trans ?_
      rw [h.eq]
      rfl
  | true =>
    simp only [if_true]
    have hdq := fwdReplyNew_queued hcq (hcount ▸ hcap rfl) isCancel bindAddr bindPort
    have hdp := fwdReplyNew_pointers hcq h.pointers isCancel bindAddr bindPort
    refine ⟨hdq.push (Nat.le_succ _), ?_, ?_, ?_, ?_, ?_, hlist, ?_⟩
    · exact fwdPendingPush_pointers hdp (Nat.le_succ _) h.alive hfound
    · exact (fwdReplyNew_ids hcq isCancel bindAddr bindPort).trans (congrArg (· ++ [c.next]) hids)
    · rintro i ⟨⟩
      exact ⟨h.next, by change c.next < c.next + 1 + 1; omega⟩
    · exact h.next.trans (by change c.next ≤ c.next + 1 + 1; omega)
    · exact congrArg _ hpending
    · have hrestored := discard_reply { a with next := c.next }
        ⟨hq.count, hq.cap, hq.tail, hq.once, fun i hi => (hq.fresh i hi).trans_le h.next,
          fun r hr => (hq.parked r hr).trans_le h.next⟩ isCancel bindAddr bindPort (c.next + 1 + 1)
      have hunlink := h.unlink
        { c.fwdReplyNew isCancel bindAddr bindPort with next := c.next + 1 + 1 } rfl
        fun e he => Names.of_enqueue hcq rfl he
      rw [discard_push]
      refine (congrArg (·.discardReply (.some c.next)) hunlink).trans (Eq.trans ?_ hrestored)
      rw [h.eq]
      rfl

theorem fwdRemotePrepare_prepared (hq : Queued a) (hp : Pointers a) {bindAddr : Bytes}
    {bindPort : Nat} {wantReply isCancel : Bool} {alloc : Alloc} {pend : Pending}
    (h : a.fwdRemotePrepare bindAddr bindPort wantReply isCancel alloc = .ok (b, pend)) :
    Prepared a b pend := by
  rw [fwdRemotePrepare] at h
  split at h
  · cases h
  rename_i hcap
  have hcap : wantReply → a.fwdReplyCount < maxFwdReplies := fun hw =>
    Nat.lt_of_not_le fun hle => hcap ⟨hw, hle⟩
  have hfound : ∀ e, (a.fwdRemoteFind bindAddr bindPort).or (a.fwdPendingFind bindAddr bindPort) =
      some e → (a.heap e).isSome := fun e he => find_alive hp he
  dsimp only at h
  generalize (a.fwdRemoteFind bindAddr bindPort).or (a.fwdPendingFind bindAddr bindPort) = found
    at h hfound
  split at h
  · cases h
  split at h
  · cases h
  obtain ⟨rfl, rfl⟩ := Prod.mk.inj (Except.ok.inj h)
  by_cases hnew : !isCancel && found.isNone
  · simp only [hnew, if_true]
    have hnone : found = none := by
      cases found with
      | none => rfl
      | some e => simp at hnew
    exact (registered_new hp bindAddr bindPort).prepared hq hcap (by rw [hnone]; nofun)
  · simp only [hnew]
    exact (registered_none hp).prepared hq hcap hfound

/-! A request that is on its way. -/

theorem fwdPendingPop_settles (pend : Nat) (ssh : Ssh) : Settles ssh (ssh.fwdPendingPop pend) where
  same := ⟨List.Subset.refl _, rfl, rfl, rfl, rfl⟩
  pointers h := by
    refine ⟨h.once, fun e he => h.alive e ?_, h.fresh⟩
    cases he with
    | list h => exact .list h
    | reply h he => exact .reply h he
    | entry h he => exact .entry (List.mem_of_mem_eraseP h) he
    | found h he => exact .found (List.mem_of_mem_eraseP h) he
  idle h p hp := h p (List.mem_of_mem_eraseP hp)

theorem link_settles {entry : Nat} (halive : (ssh.heap entry).isSome)
    (hlist : entry ∉ ssh.fwdRemoteList) :
    Settles ssh { ssh with fwdRemoteList := ssh.fwdRemoteList ++ [entry] } where
  same := ⟨List.Subset.refl _, rfl, rfl, rfl, rfl⟩
  pointers h := by
    refine ⟨?_, fun e he => ?_, h.fresh⟩
    · refine List.nodup_append.mpr ⟨h.once, by simp, fun i hi j hj => ?_⟩
      rw [List.mem_singleton] at hj
      rintro rfl
      exact hlist (hj ▸ hi)
    · cases he with
      | list hmem =>
        rcases List.mem_append.mp hmem with hmem | hmem
        · exact h.alive e (.list hmem)
        · rw [List.mem_singleton] at hmem
          rw [hmem]
          exact halive
      | reply hr he => exact h.alive e (.reply hr he)
      | entry hp he => exact h.alive e (.entry hp he)
      | found hp he => exact h.alive e (.found hp he)
  idle := id

theorem foldCommitted_settles {entry : Nat} (hp : Pointers ssh) (halive : (ssh.heap entry).isSome)
    (hlist : entry ∉ ssh.fwdRemoteList) :
    Settles ssh (ssh.foldCommitted entry).1 ∧
      ((ssh.foldCommitted entry).1.heap (ssh.foldCommitted entry).2).isSome := by
  rw [foldCommitted]
  split
  · exact ⟨.refl ssh, halive⟩
  · split
    · exact ⟨link_settles halive hlist, halive⟩
    · split
      · rename_i dup hfind
        have hmem := List.mem_of_find?_eq_some hfind
        have hdup := hp.alive dup (.list hmem)
        have hne : dup ≠ entry := by
          rintro rfl
          exact hlist hmem
        refine ⟨(fwdReplyRebind_settles entry hdup).trans (fwdRemoteUnlink_settles entry _), ?_⟩
        have hrebound : ((ssh.fwdReplyRebind entry dup).heap dup).isSome := hdup
        exact fwdRemoteUnlink_alive hne.symm hrebound
      · exact ⟨link_settles halive hlist, halive⟩

theorem commitEntry_settles {pend : Pending} (hp : Pointers ssh)
    (hentry : ∀ e ∈ pend.entry, (ssh.heap e).isSome ∧ e ∉ ssh.fwdRemoteList)
    (hfound : ∀ e ∈ pend.found, (ssh.heap e).isSome) :
    Settles ssh (ssh.commitEntry pend).1 ∧
      ∀ e ∈ (ssh.commitEntry pend).2, ((ssh.commitEntry pend).1.heap e).isSome := by
  rw [commitEntry]
  split
  · rename_i entry he
    obtain ⟨halive, hlist⟩ := hentry entry he
    obtain ⟨hsettles, htarget⟩ := foldCommitted_settles hp halive hlist
    refine ⟨hsettles, ?_⟩
    rintro e ⟨⟩
    exact htarget
  · exact ⟨.refl ssh, hfound⟩

theorem commitReply_settles (reply : Nat) {target : Option Nat}
    (htarget : ∀ e ∈ target, (ssh.heap e).isSome) : Settles ssh (ssh.commitReply reply target) := by
  rw [commitReply]
  split
  · rename_i r _
    have hsettle := fwdRemoteSettle_settles target r.isCancel r.success r.port ssh
    refine ⟨⟨List.eraseP_subset, hsettle.same.ids, hsettle.same.tail, hsettle.same.count,
      hsettle.same.next⟩, fun h => ?_, hsettle.idle⟩
    have hpointers := hsettle.pointers h
    refine ⟨hpointers.once, fun e he => hpointers.alive e ?_, hpointers.fresh⟩
    cases he with
    | list h => exact .list h
    | reply h he => exact .reply h he
    | entry h he => exact .entry h he
    | found h he => exact .found h he
  · refine ⟨⟨List.Subset.refl _, map_ids (fun r => ?_) _, rfl, rfl, rfl⟩, fun h => ?_, id⟩
    · split <;> rfl
    · refine ⟨h.once, fun e he => ?_, h.fresh⟩
      cases he with
      | list he => exact h.alive e (.list he)
      | reply hmem he =>
        obtain ⟨r, hr, rfl⟩ := List.mem_map.mp hmem
        split at he
        · exact htarget e he
        · exact h.alive e (.reply hr he)
      | entry hp he => exact h.alive e (.entry hp he)
      | found hp he => exact h.alive e (.found hp he)

theorem commitNoReply_settles (isCancel : Bool) (target : Nat) (ssh : Ssh) :
    Settles ssh (ssh.commitNoReply isCancel target) := by
  rw [commitNoReply]
  split
  · exact fwdRemoteUnlink_settles target ssh
  · have hvoid : Settles ssh (ssh.fwdReplyVoid target) :=
      ⟨fwdReplyVoid_same target ssh, fun h => h.fwdReplyVoid target, id⟩
    exact hvoid.trans (setRemote_settles target _ _)

theorem fwdPendingCommit_settles {pend : Pending} (hp : Pointers ssh) (hmem : pend ∈ ssh.fwdPending)
    (hlist : ∀ e ∈ pend.entry, e ∉ ssh.fwdRemoteList) :
    Settles (ssh.fwdPendingPop pend.id) (ssh.fwdPendingCommit pend) := by
  have hpop := fwdPendingPop_settles pend.id ssh
  have hentry : ∀ e ∈ pend.entry, ((ssh.fwdPendingPop pend.id).heap e).isSome ∧
      e ∉ (ssh.fwdPendingPop pend.id).fwdRemoteList :=
    fun e he => ⟨hp.alive e (.entry hmem he), hlist e he⟩
  have hfound : ∀ e ∈ pend.found, ((ssh.fwdPendingPop pend.id).heap e).isSome :=
    fun e he => hp.alive e (.found hmem he)
  obtain ⟨hcommit, htarget⟩ := commitEntry_settles (hpop.pointers hp) hentry hfound
  rw [fwdPendingCommit]
  generalize (ssh.fwdPendingPop pend.id).commitEntry pend = r at hcommit htarget ⊢
  obtain ⟨committed, target⟩ := r
  dsimp only
  split
  · exact hcommit.trans (commitReply_settles _ htarget)
  · exact hcommit.trans (commitNoReply_settles _ _ _)
  · exact hcommit

/-! An answer. -/

/-- The oldest slot is taken off the queue. -/
structure Dequeued (a b : Ssh) : Prop where
  queued : Queued b
  pointers : Pointers b
  idle : Idle a → Idle b
  next : b.next = a.next
  ids : a.queueIds = (a.fwdReply.head?.map Reply.id).toList ++ b.queueIds

theorem fwdRemoteReply_dequeued (hq : Queued a) (hp : Pointers a) (success : Bool) (body : Bytes) :
    Dequeued a (a.fwdRemoteReply success body) := by
  rw [fwdRemoteReply]
  split
  · rename_i hnil
    refine ⟨hq, hp, id, rfl, ?_⟩
    rw [hnil]
    rfl
  · rename_i reply rest hcons
    generalize (if success ∧ body.length ≥ uint32Sz then ato32 body else 0) = port
    have hids : a.queueIds = reply.id :: rest.map Reply.id := by rw [queueIds, hcons, List.map_cons]
    have hcount := hq.count
    have hcap := hq.cap
    have htail := hq.tail
    have honce := hq.once
    have hfresh := hq.fresh
    rw [hids] at hcount htail honce hfresh
    rw [List.length_cons] at hcount
    let taken : Ssh := { a with
      fwdReply := rest
      fwdReplyTail := if rest = [] then none else a.fwdReplyTail
      fwdReplyCount := a.fwdReplyCount - 1 }
    have hqueued : Queued taken := by
      refine ⟨?_, ?_, ?_, honce.of_cons, fun i hi => hfresh i (List.mem_cons_of_mem _ hi), hq.parked⟩
      · change a.fwdReplyCount - 1 = (rest.map Reply.id).length
        omega
      · change a.fwdReplyCount - 1 ≤ maxFwdReplies
        omega
      · change (if rest = [] then none else a.fwdReplyTail) = (rest.map Reply.id).getLast?
        rw [htail]
        cases rest with
        | nil => rfl
        | cons r rest => rfl
    have hpointers : Pointers taken := by
      refine ⟨hp.once, fun e he => hp.alive e ?_, hp.fresh⟩
      cases he with
      | list h => exact .list h
      | reply h he => exact .reply (by rw [hcons]; exact List.mem_cons_of_mem _ h) he
      | entry h he => exact .entry h he
      | found h he => exact .found h he
    have hhead : a.queueIds = (a.fwdReply.head?.map Reply.id).toList ++ taken.queueIds := by
      rw [hids, hcons]
      rfl
    dsimp only
    split
    · refine ⟨⟨hqueued.count, hqueued.cap, hqueued.tail, hqueued.once, hqueued.fresh, ?_⟩,
        ⟨hpointers.once, fun e he => hpointers.alive e ?_, hpointers.fresh⟩, id, rfl, hhead⟩
      · intro r hr
        rcases List.mem_cons.mp hr with rfl | hr
        · exact hfresh _ List.mem_cons_self
        · exact hq.parked r hr
      · cases he with
        | list h => exact .list h
        | reply h he => exact .reply h he
        | entry h he => exact .entry h he
        | found h he => exact .found h he
    · have hsettle := fwdRemoteSettle_settles reply.entry reply.isCancel success port taken
      refine ⟨hqueued.same hsettle.same, hsettle.pointers hpointers, hsettle.idle, hsettle.same.next, ?_⟩
      rw [hhead, ← hsettle.same.ids]

end Ssh

/-- A flush loses no request that is on its way, and gets none out that its sender gave up. -/
def Flush.Keeps (framed : List Framed) : Flush → Prop
  | .done => ∀ f ∈ framed, f.live
  | .wantWrite n | .failed n => ∀ f ∈ framed.take n, f.live
  | .dropped n => (∀ f ∈ framed.take n, f.live) ∧ ∀ f ∈ framed.drop n, ¬ f.live

def Flush.isError : Flush → Bool
  | .done | .wantWrite _ => false
  | .failed _ | .dropped _ => true

namespace State

def live (framed : List Framed) : List Nat := (framed.filter Framed.live).map Framed.id

/-- The requests that reached the wire, and those that go out with the next flush. -/
def onWay (s : State) : List Nat := s.wire ++ live s.framed

def framedIds (s : State) : List Nat := s.wire ++ s.framed.map Framed.id

/-- The request of the sender is given up. -/
def giveUp (own : Option Nat) (framed : List Framed) : List Framed :=
  framed.map fun f => if some f.id = own then { f with live := false } else f

theorem live_append (l m : List Framed) : live (l ++ m) = live l ++ live m := by
  rw [live, List.filter_append, List.map_append]
  rfl

theorem live_of_live {l : List Framed} (h : ∀ f ∈ l, f.live) : live l = l.map Framed.id := by
  rw [live, List.filter_eq_self.mpr h]

theorem live_of_dead {l : List Framed} (h : ∀ f ∈ l, ¬ f.live) : live l = [] := by
  rw [live, List.filter_eq_nil_iff.mpr h]
  rfl

theorem giveUp_of_ne {own : Option Nat} {l : List Framed} (h : ∀ f ∈ l, some f.id ≠ own) :
    giveUp own l = l := by
  refine (List.map_congr_left fun f hf => if_neg (h f hf)).trans ?_
  exact List.map_id _

/-- The packet of a request that wants a reply. -/
def ownFrame (own : Option Nat) : List Framed := own.toList.map fun id => { id := id }

theorem live_ownFrame (own : Option Nat) : live (ownFrame own) = own.toList := by
  cases own <;> rfl

theorem giveUp_ownFrame (own : Option Nat) : live (giveUp own (ownFrame own)) = [] := by
  cases own with
  | none => rfl
  | some id => simp [live, giveUp, ownFrame]

/-- What a flush gets out and what it leaves of the packets that were framed before the own one. -/
theorem takeWhile_older {older : List Framed} {own : Option Nat} (hne : ∀ f ∈ older, some f.id ≠ own) :
    ((older ++ ownFrame own).takeWhile fun f => some f.id ≠ own).length = older.length := by
  rw [List.takeWhile_append_of_pos (by simpa using hne)]
  cases own <;> simp [ownFrame]

theorem live_take_drop {older : List Framed} {n : Nat} (h : ∀ f ∈ older.take n, f.live) :
    (older.take n).map Framed.id ++ live (older.drop n) = live older := by
  rw [← live_of_live h, ← live_append, List.take_append_drop]

section Transmit

variable {s : State} {older : List Framed} {own : Option Nat}

/-- The packets of `older` that go out with `n`, and those that stay. -/
theorem transmit_out (hs : s.framed = older ++ ownFrame own) (hne : ∀ f ∈ older, some f.id ≠ own)
    (n : Nat) :
    s.framed.take (min n (s.framed.takeWhile fun f => some f.id ≠ own).length) = older.take n ∧
      s.framed.drop (min n (s.framed.takeWhile fun f => some f.id ≠ own).length) =
        older.drop n ++ ownFrame own := by
  have hmin : min n older.length ≤ older.length := Nat.min_le_right _ _
  rw [hs, takeWhile_older hne]
  constructor
  · rw [List.take_append_of_le_length hmin, ← List.take_eq_take_min]
  · rw [List.drop_append_of_le_length hmin, ← List.drop_eq_drop_min]

theorem transmit_ssh (flush : Flush) (own : Option Nat) (s : State) :
    (s.transmit flush own).ssh = s.ssh ∧ (s.transmit flush own).calls = s.calls ∧
      (s.transmit flush own).answered = s.answered := by
  cases flush <;> exact ⟨rfl, rfl, rfl⟩

theorem transmit_txFlushCount (flush : Flush) (own : Option Nat) (s : State) :
    ((s.transmit flush own).txFlushCount != s.txFlushCount) = decide (flush = .done) := by
  cases flush with
  | done =>
    have hne : (s.txFlushCount + 1) % 2 ^ 32 ≠ s.txFlushCount := by omega
    simpa [transmit] using hne
  | wantWrite n => simp [transmit]
  | failed n => simp [transmit]
  | dropped n => simp [transmit]

/-- A flush that its sender is told of as delivered keeps every request on its way. -/
theorem transmit_delivered (hs : s.framed = older ++ ownFrame own)
    (hne : ∀ f ∈ older, some f.id ≠ own) {flush : Flush} (hkeeps : flush.Keeps older)
    (hok : flush.isError = false) :
    (s.transmit flush own).onWay = s.wire ++ live older ++ own.toList := by
  cases flush with
  | done =>
    have hown : (ownFrame own).map Framed.id = own.toList := by cases own <;> rfl
    rw [transmit, onWay]
    dsimp only
    rw [hs, List.map_append, hown, live_of_live hkeeps]
    simp [live]
  | wantWrite n =>
    obtain ⟨htake, hdrop⟩ := transmit_out hs hne n
    rw [transmit, onWay]
    dsimp only
    rw [htake, hdrop, live_append, live_ownFrame, ← live_take_drop hkeeps]
    simp only [List.append_assoc]
  | failed n => cases hok
  | dropped n => cases hok

/-- After a flush that fails the request of its sender is the only one that is not on its way. -/
theorem transmit_failed (hs : s.framed = older ++ ownFrame own) (hne : ∀ f ∈ older, some f.id ≠ own)
    {flush : Flush} (hkeeps : flush.Keeps older) (herr : flush.isError = true) :
    (s.transmit flush own).wire ++ live (giveUp own (s.transmit flush own).framed) =
      s.wire ++ live older := by
  cases flush with
  | done => cases herr
  | wantWrite n => cases herr
  | failed n =>
    obtain ⟨htake, hdrop⟩ := transmit_out hs hne n
    have hrest : giveUp own (older.drop n ++ ownFrame own) = older.drop n ++ giveUp own (ownFrame own) := by
      rw [giveUp, List.map_append]
      exact congrArg (· ++ _) (giveUp_of_ne fun f hf => hne f (List.mem_of_mem_drop hf))
    rw [transmit]
    dsimp only
    rw [htake, hdrop, hrest, live_append, giveUp_ownFrame, List.append_nil, List.append_assoc,
      live_take_drop hkeeps]
  | dropped n =>
    obtain ⟨htake, hdrop⟩ := transmit_out hs hne n
    rw [transmit]
    dsimp only
    rw [htake, List.append_assoc]
    refine congrArg (s.wire ++ ·) ?_
    rw [← live_take_drop hkeeps.1, live_of_dead hkeeps.2]
    rfl

theorem transmit_sublist (flush : Flush) (own : Option Nat) (s : State) :
    (s.transmit flush own).framedIds.Sublist s.framedIds := by
  cases flush with
  | done =>
    rw [transmit, framedIds, framedIds]
    simp
  | wantWrite n | failed n =>
    rw [transmit, framedIds, framedIds]
    dsimp only
    rw [List.append_assoc, ← List.map_append, List.take_append_drop]
  | dropped n =>
    rw [transmit, framedIds, framedIds]
    dsimp only
    rw [List.map_nil, List.append_nil]
    exact (List.Sublist.refl _).append ((List.take_sublist _ _).map _)

end Transmit

end State

/-- Between two steps of a run in which the send callback calls nothing. -/
structure Inv (s : State) : Prop where
  queued : s.ssh.Queued
  pointers : s.ssh.Pointers
  idle : s.ssh.Idle
  paired : s.answered ++ s.ssh.queueIds = s.onWay
  order : s.framedIds.Pairwise (· < ·)
  fresh : ∀ i ∈ s.framedIds, i < s.ssh.next

/-- The queue holds the requests that are on their way and not answered, each once and in the order of
the wire, its count and its tail are right, and no pointer names a registration that was freed. -/
structure Paired (s : State) : Prop where
  paired : s.answered ++ s.ssh.queueIds = s.onWay
  once : (s.answered ++ s.ssh.queueIds).Nodup
  count : s.ssh.fwdReplyCount = s.ssh.queueIds.length
  cap : s.ssh.fwdReplyCount ≤ maxFwdReplies
  tail : s.ssh.fwdReplyTail = s.ssh.queueIds.getLast?
  alive : ∀ e, s.ssh.Names e → (s.ssh.heap e).isSome

theorem State.onWay_sublist (s : State) : s.onWay.Sublist s.framedIds :=
  (List.Sublist.refl _).append (List.filter_sublist.map _)

theorem Inv.toPaired {s : State} (h : Inv s) : Paired s := by
  refine ⟨h.paired, ?_, h.queued.count, h.queued.cap, h.queued.tail, h.pointers.alive⟩
  rw [h.paired]
  exact (h.order.imp fun hlt => hlt.ne).sublist s.onWay_sublist

def Opens (r : Request) (env : Env) (s : State) : Prop :=
  (r.prepare env s.ssh).toOption.isSome ∧ env.bundled

/-- The steps that keep the queue and the wire together: the send callback calls nothing, a flush
keeps what is on its way, and the counter of the flushes has not come round in a callback. -/
def Clean (s : State) : Event → Prop
  | .request r env flush => Opens r env s → flush.Keeps s.framed
  | .flush flush => flush.Keeps s.framed
  | .purge => ∀ f ∈ s.framed, ¬ f.live
  | .callbackEnd wantWrite => ∀ c ∈ s.calls.head?, c.flushed → s.sendPacketDelivered c wantWrite
  | .begins _ _ | .flushEnd _ => False
  | .reply _ _ => True

theorem prepare_prepared {r : Request} {env : Env} {a b : Ssh} {pend : Pending} (hq : a.Queued)
    (hp : a.Pointers) (h : r.prepare env a = .ok (b, pend)) : Ssh.Prepared a b pend := by
  cases r with
  | setup bindAddr bindPort wantReply =>
    rw [Request.prepare, Ssh.fwdRemoteSetup] at h
    iterate 6 (split at h; · cases h)
    exact Ssh.fwdRemotePrepare_prepared hq hp h
  | cancel bindAddr bindPort wantReply =>
    rw [Request.prepare, Ssh.fwdRemoteCancel] at h
    iterate 5 (split at h; · cases h)
    exact Ssh.fwdRemotePrepare_prepared hq hp h
  | global =>
    rw [Request.prepare, Ssh.globalRequest] at h
    split at h
    · cases h
    · exact Ssh.fwdReplyPrepare_prepared hq hp h

namespace Inv

variable {s : State}

theorem of_ssh {ssh : Ssh} {calls : List Call} (h : Inv s) (hs : s.ssh.Settles ssh) :
    Inv { s with ssh := ssh, calls := calls } where
  queued := h.queued.same hs.same
  pointers := hs.pointers h.pointers
  idle := hs.idle h.idle
  paired := by
    change s.answered ++ ssh.queueIds = s.onWay
    rw [hs.same.ids]
    exact h.paired
  order := h.order
  fresh := by
    change ∀ i ∈ s.framedIds, i < ssh.next
    rw [hs.same.next]
    exact h.fresh

theorem of_next (h : Inv s) {n : Nat} (hn : s.ssh.next ≤ n) :
    Inv { s with ssh := { s.ssh with next := n } } where
  queued := ⟨h.queued.count, h.queued.cap, h.queued.tail, h.queued.once,
    fun i hi => (h.queued.fresh i hi).trans_le hn, fun r hr => (h.queued.parked r hr).trans_le hn⟩
  pointers := ⟨h.pointers.once, fun e he => h.pointers.alive e (by
    cases he with
    | list h => exact .list h
    | reply h he => exact .reply h he
    | entry h he => exact .entry h he
    | found h he => exact .found h he), fun i hi => h.pointers.fresh i (hn.trans hi)⟩
  idle := h.idle
  paired := h.paired
  order := h.order
  fresh i hi := (h.fresh i hi).trans_le hn

section Request

variable {r : Request} {env : Env} {b : Ssh} {pend : Pending}

theorem frame_framedIds (r : Request) (b : Ssh) (pend : Pending) (s : State) :
    (s.frame r b pend).framedIds = s.framedIds ++ pend.reply.toList := by
  rw [State.frame, State.framedIds, State.framedIds]
  cases pend.reply <;> simp

theorem frame_order (h : Inv s) (hprep : Ssh.Prepared s.ssh b pend) (r : Request) :
    (s.frame r b pend).framedIds.Pairwise (· < ·) ∧ ∀ i ∈ (s.frame r b pend).framedIds, i < b.next := by
  rw [frame_framedIds]
  constructor
  · refine List.pairwise_append.mpr ⟨h.order, ?_, fun i hi j hj => ?_⟩
    · cases pend.reply <;> simp
    · exact (h.fresh i hi).trans_le (hprep.reply j (Option.mem_toList.mp hj)).1
  · intro i hi
    rcases List.mem_append.mp hi with hi | hi
    · exact (h.fresh i hi).trans_le hprep.next
    · exact (hprep.reply i (Option.mem_toList.mp hi)).2

theorem older_ne (h : Inv s) (hprep : Ssh.Prepared s.ssh b pend) :
    ∀ f ∈ s.framed, some f.id ≠ pend.reply := by
  intro f hf heq
  have hlt := h.fresh f.id (List.mem_append_right _ (List.mem_map_of_mem hf))
  have hge := (hprep.reply f.id heq.symm).1
  omega

theorem sent (h : Inv s) (r : Request) (calls : List Call) (hprep : Ssh.Prepared s.ssh b pend)
    {flush : Flush} (hkeeps : flush.Keeps s.framed) (hok : flush.isError = false) {ssh : Ssh} (hs : b.Settles ssh) (hidle : ssh.Idle) :
    Inv { (s.frame r b pend).transmit flush pend.reply with ssh := ssh, calls := calls } := by
  obtain ⟨horder, hfresh⟩ := h.frame_order hprep r
  have hsub := State.transmit_sublist flush pend.reply (s.frame r b pend)
  obtain ⟨-, -, hanswered⟩ := State.transmit_ssh flush pend.reply (s.frame r b pend)
  have honWay := State.transmit_delivered (s := s.frame r b pend) rfl (h.older_ne hprep) hkeeps hok
  refine ⟨hprep.queued.same hs.same, hs.pointers hprep.pointers, hidle, ?_, horder.sublist hsub, ?_⟩
  · change ((s.frame r b pend).transmit flush pend.reply).answered ++ ssh.queueIds =
      ((s.frame r b pend).transmit flush pend.reply).onWay
    have hpaired : s.answered ++ s.ssh.queueIds = s.wire ++ State.live s.framed := h.paired
    rw [hanswered, honWay, hs.same.ids, hprep.ids, ← List.append_assoc]
    exact congrArg (· ++ pend.reply.toList) hpaired
  · intro i hi
    have hlt := hfresh i (hsub.subset hi)
    exact hlt.trans_eq hs.same.next.symm

theorem givenUp (h : Inv s) (hprep : Ssh.Prepared s.ssh b pend) {flush : Flush}
    (hkeeps : flush.Keeps s.framed) (herr : flush.isError = true) :
    Inv { (s.frame r b pend).transmit flush pend.reply with
      ssh := { s.ssh with next := b.next }
      calls := s.calls
      framed := State.giveUp pend.reply ((s.frame r b pend).transmit flush pend.reply).framed } := by
  obtain ⟨horder, hlt⟩ := h.frame_order hprep r
  have hsub := State.transmit_sublist flush pend.reply (s.frame r b pend)
  obtain ⟨-, -, hanswered⟩ := State.transmit_ssh flush pend.reply (s.frame r b pend)
  have honWay := State.transmit_failed (s := s.frame r b pend) rfl (h.older_ne hprep) hkeeps herr
  have hbase := h.of_next hprep.next
  have hids : ∀ l, (State.giveUp pend.reply l).map Framed.id = l.map Framed.id := by
    intro l
    rw [State.giveUp, List.map_map]
    refine List.map_congr_left fun f _ => ?_
    rw [Function.comp_apply]
    split <;> rfl
  refine ⟨hbase.queued, hbase.pointers, hbase.idle, ?_, ?_, ?_⟩
  · change ((s.frame r b pend).transmit flush pend.reply).answered ++ s.ssh.queueIds =
      ((s.frame r b pend).transmit flush pend.reply).wire ++
        State.live (State.giveUp pend.reply ((s.frame r b pend).transmit flush pend.reply).framed)
    rw [hanswered, honWay]
    exact h.paired
  · change (_ ++ (State.giveUp pend.reply _).map Framed.id).Pairwise (· < ·)
    rw [hids]
    exact horder.sublist hsub
  · change ∀ i ∈ _ ++ (State.giveUp pend.reply _).map Framed.id, i < b.next
    rw [hids]
    exact fun i hi => hlt i (hsub.subset hi)

theorem flushEnd_frame (r : Request) (b : Ssh) {pend : Pending} {rest : List Pending}
    (hpending : b.fwdPending = pend :: rest) (flush : Flush) (s : State) :
    (s.frame r b pend).flushEnd flush =
      let t := (s.frame r b pend).transmit flush pend.reply
      if r = .global ∧ flush = .done then
        { t with calls := { pend := pend.id, flushes := s.txFlushCount, request := pend.reply
                            isGlobal := r = .global, flushed := true } :: s.calls }
      else if flush.isError then
        { t with
          ssh := b.fwdPendingDiscard pend
          calls := s.calls
          framed := State.giveUp pend.reply t.framed }
      else { t with ssh := b.fwdPendingCommit pend, calls := s.calls } := by
  have hcount := State.transmit_txFlushCount flush pend.reply (s.frame r b pend)
  obtain ⟨hssh, -, -⟩ := State.transmit_ssh flush pend.reply (s.frame r b pend)
  have hb : (s.frame r b pend).ssh = b := rfl
  have hflushes : (s.frame r b pend).txFlushCount = s.txFlushCount := rfl
  rw [hb] at hssh
  rw [hflushes] at hcount
  have hfind : b.fwdPending.find? (fun p => p.id == pend.id) = some pend := by
    rw [hpending, List.find?_cons_of_pos (by simp)]
  have hcalls : (s.frame r b pend).calls =
      Call.mk pend.id s.txFlushCount pend.reply (r = .global) false :: s.calls := rfl
  have hdelivered : ((((s.frame r b pend).transmit flush pend.reply).txFlushCount != s.txFlushCount) ||
      flush.isWantWrite) = !flush.isError := by
    rw [hcount]
    cases flush <;> rfl
  rw [State.flushEnd, hcalls]
  dsimp only
  rw [if_neg Bool.false_ne_true]
  simp only [decide_eq_true_eq]
  by_cases hglobal : r = .global ∧ flush = .done
  · rw [if_pos hglobal, if_pos hglobal]
  · rw [if_neg hglobal, if_neg hglobal, State.settle]
    dsimp only
    rw [hssh, hfind]
    dsimp only
    rw [State.sendPacketDelivered]
    dsimp only
    rw [hdelivered]
    cases herr : flush.isError <;> rfl

theorem idle_of_prepared (h : Inv s) (hprep : Ssh.Prepared s.ssh b pend)
    (hnone : pend.entry = none ∧ pend.found = none) : b.Idle := by
  intro p hp
  rw [hprep.pending] at hp
  rcases List.mem_cons.mp hp with rfl | hp
  · exact hnone
  · exact h.idle p hp

theorem idle_of_pop (h : Inv s) (hprep : Ssh.Prepared s.ssh b pend) :
    (b.fwdPendingPop pend.id).Idle := by
  intro p hp
  refine h.idle p ?_
  have hmem : p ∈ (pend :: s.ssh.fwdPending).eraseP fun q => q.id == pend.id := by
    rw [← hprep.pending]
    exact hp
  simpa using hmem

theorem request (h : Inv s) (hprep : Ssh.Prepared s.ssh b pend)
    (hglobal : r = .global → pend.entry = none ∧ pend.found = none) {flush : Flush}
    (hkeeps : flush.Keeps s.framed) : Inv ((s.frame r b pend).flushEnd flush) := by
  rw [flushEnd_frame r b hprep.pending]
  dsimp only
  by_cases hopen : r = .global ∧ flush = .done
  · rw [if_pos hopen]
    obtain ⟨rfl, rfl⟩ := hopen
    have hssh : ((s.frame .global b pend).transmit .done pend.reply).ssh = b := rfl
    have hsent := h.sent .global (Call.mk pend.id s.txFlushCount pend.reply true true :: s.calls)
      hprep hkeeps rfl (Ssh.Settles.refl b) (h.idle_of_prepared hprep (hglobal rfl))
    exact hsent
  · rw [if_neg hopen]
    cases herr : flush.isError with
    | true =>
      rw [if_pos rfl, hprep.discard]
      exact h.givenUp hprep hkeeps herr
    | false =>
      rw [if_neg Bool.false_ne_true]
      have hmem : pend ∈ b.fwdPending := by
        rw [hprep.pending]
        exact List.mem_cons_self
      have hcommit := Ssh.fwdPendingCommit_settles hprep.pointers hmem hprep.unlinked
      exact h.sent r s.calls hprep hkeeps herr ((Ssh.fwdPendingPop_settles _ b).trans hcommit)
        (hcommit.idle (h.idle_of_pop hprep))

end Request

theorem global_prepared {env : Env} {b : Ssh} {pend : Pending}
    (hok : Request.global.prepare env s.ssh = .ok (b, pend)) :
    pend.entry = none ∧ pend.found = none := by
  rw [Request.prepare, Ssh.globalRequest] at hok
  split at hok
  · cases hok
  · rw [Ssh.fwdReplyPrepare] at hok
    split at hok
    · cases hok
    · split at hok
      · cases hok
      · obtain ⟨-, rfl⟩ := Prod.mk.inj (Except.ok.inj hok)
        exact ⟨rfl, rfl⟩

theorem send (h : Inv s) {r : Request} {env : Env} {flush : Flush}
    (hkeeps : Opens r env s → flush.Keeps s.framed) : Inv (s.send r env (State.flushEnd flush)) := by
  rw [State.send]
  split
  · exact h
  · rename_i b pend hok
    have hprep := prepare_prepared h.queued h.pointers hok
    split
    · rename_i hbundled
      refine h.request hprep (fun hr => ?_) (hkeeps ⟨by rw [hok]; rfl, hbundled⟩)
      rw [hr] at hok
      exact global_prepared hok
    · rw [hprep.discard]
      exact h.of_next hprep.next

theorem callbackEnd (h : Inv s) {wantWrite : Bool}
    (hdelivered : ∀ c ∈ s.calls.head?, c.flushed → s.sendPacketDelivered c wantWrite) :
    Inv (s.callbackEnd wantWrite) := by
  rw [State.callbackEnd]
  split
  · exact h
  · rename_i c calls hcalls
    split
    · rename_i hflushed
      have hsent : s.sendPacketDelivered c wantWrite = true :=
        hdelivered c (by rw [hcalls]; rfl) hflushed
      rw [hsent, State.settle]
      split
      · exact h.of_ssh (Ssh.Settles.refl s.ssh)
      · rename_i pend hfind
        have hmem := List.mem_of_find?_eq_some hfind
        have hentry := (h.idle pend hmem).1
        have hcommit := Ssh.fwdPendingCommit_settles h.pointers hmem (by rw [hentry]; nofun)
        exact h.of_ssh ((Ssh.fwdPendingPop_settles _ s.ssh).trans hcommit)
    · exact h

theorem transmit (h : Inv s) {flush : Flush} (hkeeps : flush.Keeps s.framed) :
    Inv (s.transmit flush none) := by
  obtain ⟨hssh, -, hanswered⟩ := State.transmit_ssh flush none s
  have hsub := State.transmit_sublist flush none s
  have hframed : s.framed = s.framed ++ State.ownFrame none := (List.append_nil _).symm
  have hne : ∀ f ∈ s.framed, some f.id ≠ none := fun f _ => Option.some_ne_none f.id
  have honWay : (s.transmit flush none).onWay = s.onWay := by
    cases herr : flush.isError with
    | false =>
      have hsent := State.transmit_delivered hframed hne hkeeps herr
      exact hsent.trans (List.append_nil _)
    | true =>
      have hsent := State.transmit_failed hframed hne hkeeps herr
      rw [State.giveUp_of_ne fun f _ => Option.some_ne_none f.id] at hsent
      exact hsent
  refine ⟨?_, ?_, ?_, ?_, h.order.sublist hsub, ?_⟩
  · rw [hssh]
    exact h.queued
  · rw [hssh]
    exact h.pointers
  · rw [hssh]
    exact h.idle
  · rw [hssh, hanswered, honWay]
    exact h.paired
  · rw [hssh]
    exact fun i hi => h.fresh i (hsub.subset hi)

theorem purge (h : Inv s) (hdead : ∀ f ∈ s.framed, ¬ f.live) : Inv { s with framed := [] } := by
  have hsub : ({ s with framed := [] } : State).framedIds.Sublist s.framedIds :=
    (List.Sublist.refl _).append (List.nil_sublist _)
  refine ⟨h.queued, h.pointers, h.idle, ?_, h.order.sublist hsub, fun i hi => h.fresh i (hsub.subset hi)⟩
  have hpaired := h.paired
  rw [State.onWay, State.live_of_dead hdead] at hpaired
  exact hpaired

theorem reply (h : Inv s) (success : Bool) (body : Bytes) : Inv (s.reply success body) := by
  have hdeq := Ssh.fwdRemoteReply_dequeued h.queued h.pointers success body
  refine ⟨hdeq.queued, hdeq.pointers, hdeq.idle h.idle, ?_, h.order, ?_⟩
  · change s.answered ++ _ ++ (s.ssh.fwdRemoteReply success body).queueIds = s.onWay
    rw [List.append_assoc, ← hdeq.ids]
    exact h.paired
  · change ∀ i ∈ s.framedIds, i < (s.ssh.fwdRemoteReply success body).next
    rw [hdeq.next]
    exact h.fresh

theorem step (h : Inv s) {e : Event} (hclean : Clean s e) : Inv (FwdRemote.step s e) := by
  cases e with
  | request r env flush => exact h.send hclean
  | callbackEnd wantWrite => exact h.callbackEnd hclean
  | begins r env => exact hclean.elim
  | flushEnd flush => exact hclean.elim
  | flush flush => exact h.transmit hclean
  | purge => exact h.purge hclean
  | reply success body => exact h.reply success body

theorem of_start (client : Bool) : Inv (start client) where
  queued := ⟨rfl, Nat.zero_le _, rfl, List.nodup_nil, nofun, nofun⟩
  pointers := ⟨List.nodup_nil, fun e he => by cases he <;> contradiction, fun _ _ => rfl⟩
  idle := nofun
  paired := rfl
  order := .nil
  fresh := nofun

end Inv

/-- The request is refused, or its packet is neither on the wire nor framed for the next flush. -/
def Unsent (r : Request) (env : Env) (flush : Flush) (s : State) : Prop :=
  Opens r env s → flush.isError

theorem Inv.unsent {s : State} (h : Inv s) {r : Request} {env : Env} {flush : Flush}
    (hunsent : Unsent r env flush s) :
    ∃ n, (FwdRemote.step s (.request r env flush)).ssh = { s.ssh with next := n } := by
  change ∃ n, (s.send r env (State.flushEnd flush)).ssh = _
  rw [State.send]
  split
  · exact ⟨s.ssh.next, rfl⟩
  · rename_i b pend hok
    have hprep := prepare_prepared h.queued h.pointers hok
    split
    · rename_i hbundled
      have herr : flush.isError = true := hunsent ⟨by rw [hok]; rfl, hbundled⟩
      have hdone : ¬ (r = .global ∧ flush = .done) := by
        rintro ⟨-, rfl⟩
        cases herr
      rw [Inv.flushEnd_frame r b hprep.pending]
      dsimp only
      rw [if_neg hdone, if_pos herr]
      exact ⟨b.next, hprep.discard⟩
    · exact ⟨b.next, hprep.discard⟩

instance (framed : List Framed) (flush : Flush) : Decidable (flush.Keeps framed) :=
  match flush with
  | .done => inferInstanceAs (Decidable (∀ f ∈ framed, f.live))
  | .wantWrite n | .failed n => inferInstanceAs (Decidable (∀ f ∈ framed.take n, f.live))
  | .dropped _ => inferInstanceAs (Decidable (_ ∧ _))

instance (r : Request) (env : Env) (s : State) : Decidable (Opens r env s) :=
  inferInstanceAs (Decidable (_ ∧ _))

instance (s : State) (e : Event) : Decidable (Clean s e) :=
  match e with
  | .request r env flush => inferInstanceAs (Decidable (Opens r env s → flush.Keeps s.framed))
  | .flush flush => inferInstanceAs (Decidable (flush.Keeps s.framed))
  | .purge => inferInstanceAs (Decidable (∀ f ∈ s.framed, ¬ f.live))
  | .callbackEnd wantWrite =>
    inferInstanceAs (Decidable (∀ c ∈ s.calls.head?, c.flushed → s.sendPacketDelivered c wantWrite))
  | .begins _ _ | .flushEnd _ => inferInstanceAs (Decidable False)
  | .reply _ _ => inferInstanceAs (Decidable True)

/-- A setup that the highwater callback sends within the application's own request, a reply for each,
and a cancel that an error keeps off the wire. -/
def nestedSetup : List Event :=
  [ .request .global {} .done, .request (.setup [49] 8080 1) {} (.wantWrite 0), .callbackEnd false,
    .flush .done, .reply true [], .reply true [], .request (.cancel [49] 8080 1) {} (.failed 0) ]

def Event.fromHighwater : Event → Bool
  | .begins _ _ | .flushEnd _ => false
  | .request _ _ _ | .flush _ | .purge | .callbackEnd _ | .reply _ _ => true

end WolfSsh.FwdRemote
