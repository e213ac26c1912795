import WolfSsh.SftpListing
import WolfSsh.SftpServed

/-! The server's side of a directory listing, over a whole run of its receive state. -/

namespace WolfSsh.Sftp

/-- READDIR of the handle `id`. -/
structure ReadsDir (id : HandleId) (r : Request) : Prop where
  type : r.type = 12
  data : RequestsDir id r.data

/-- What the handlers loaded for READDIR requests, and what is left of the directory. -/
structure Listed (s : Server) (id : HandleId) (dir : Nat) (names : List Bytes)
    (ran : List (Request × Option Bytes)) (t : Server) (named ended : List Nat)
    (batches : List (List NameEntry)) (rest replies : List Bytes) (new : List Event) : Prop where
  ids : ran.map (fun p => p.1.reqId) = named ++ ended
  loaded : ran.map Prod.snd = replies.map some
  lists : Lists names named ended batches rest replies
  trace : t.trace = s.trace ++ new
  lists_from : ListsFrom t.ssh id dir names new rest

section Listed

variable {b : Build} {env : Env} {s t : Server} {id : HandleId} {dir : Nat} {names : List Bytes}
  {ran : List (Request × Option Bytes)}

theorem listed_handle (hdir : HoldsDir env dir names s.trace) {named ended : List Nat}
    {batches : List (List NameEntry)} {rest replies : List Bytes} {new : List Event}
    (h : Listed s id dir names ran t named ended batches rest replies new) {r : Request}
    (hr : ReadsDir id r) :
    ∃ (out : Bytes) (named ended : List Nat) (batches : List (List NameEntry)) (rest : List Bytes)
      (new : List Event), (t.handle b env r).1 = some out ∧
      Listed s id dir names (ran ++ [(r, some out)]) (t.handle b env r).2 named ended batches rest
        (replies ++ [out]) new := by
  obtain ⟨ssh', more, entries, rest', hrun, hfrom, rfl, hall, hfull⟩ :=
    recvReadDir_lists hdir h.lists_from hr.data r.reqId
  have hdo : (recvDo b t.ssh r.type.toNat r.reqId r.data).run env t.trace =
      (⟨ssh', .success, some (if entries = [] then readdirEof r.reqId
        else sendName r.reqId entries.reverse)⟩, s.trace ++ (new ++ more)) := by
    rw [hr.type, h.trace]
    exact hrun
  have hids : (ran ++ [(r, some (if entries = [] then readdirEof r.reqId
      else sendName r.reqId entries.reverse))]).map (fun p => p.1.reqId) =
      named ++ ended ++ [r.reqId] := by
    rw [List.map_append, h.ids]
    rfl
  have hloaded (out : Bytes) : (ran ++ [(r, some out)]).map Prod.snd = (replies ++ [out]).map some := by
    rw [List.map_append, List.map_append, h.loaded]
    rfl
  rw [Server.handle, hdo]
  by_cases hnil : entries = []
  · subst hnil
    obtain ⟨-, rfl⟩ := hfull.resolve_left (by decide)
    rw [if_pos rfl] at hids ⊢
    exact ⟨_, named, ended ++ [r.reqId], batches, [], _, rfl, by rw [hids, List.append_assoc],
      hloaded _, h.lists.eof r.reqId, rfl, hfrom⟩
  · have hended : ended = [] := by
      by_contra hended
      obtain ⟨hmap, -⟩ := List.append_eq_nil_iff.mp (h.lists.ended hended)
      exact hnil (List.map_eq_nil_iff.mp hmap)
    subst hended
    have hsize : entries.length ≤ maxSftpReaddir := by omega
    rw [if_neg hnil] at hids ⊢
    exact ⟨_, named ++ [r.reqId], [], batches ++ [entries], rest', _, rfl,
      by rw [hids, List.append_nil, List.append_nil], hloaded _,
      h.lists.batch hnil hsize hall r.reqId, rfl, hfrom⟩

theorem handled_lists (hdir : HoldsDir env dir names s.trace)
    (hfrom : ListsFrom s.ssh id dir names [] names) (h : Handled b env s ran t)
    (hran : ∀ p ∈ ran, ReadsDir id p.1) :
    ∃ named ended batches rest replies new,
      Listed s id dir names ran t named ended batches rest replies new := by
  induction h with
  | start => exact ⟨[], [], [], names, [], [], rfl, rfl, .start names, (List.append_nil _).symm, hfrom⟩
  | error e _ ih =>
    obtain ⟨named, ended, batches, rest, replies, new, hl⟩ := ih hran
    exact ⟨named, ended, batches, rest, replies, new, hl.ids, hl.loaded, hl.lists, hl.trace,
      hl.lists_from⟩
  | handle r _ ih =>
    obtain ⟨named, ended, batches, rest, replies, new, hl⟩ :=
      ih fun p hp => hran p (List.mem_append_left _ hp)
    obtain ⟨out, named', ended', batches', rest', new', hout, hl'⟩ :=
      listed_handle (b := b) hdir hl (hran _ (List.mem_append_right _ (List.mem_singleton_self _)))
    exact ⟨named', ended', batches', rest', replies ++ [out], new', by rw [hout]; exact hl'⟩

theorem answered_readdir (hdir : HoldsDir env dir names s.trace)
    (hfrom : ListsFrom s.ssh id dir names [] names) {rs : List Request}
    (hrs : ∀ r ∈ rs, ReadsDir id r) : Answered b env s rs := by
  intro ran t h hran r hr
  obtain ⟨named, ended, batches, rest, replies, new, hl⟩ :=
    handled_lists hdir hfrom h fun p hp => hrs p.1 (hran p hp)
  obtain ⟨out, -, -, -, -, -, hout, -⟩ := listed_handle (b := b) hdir hl (hrs r hr)
  exact ⟨out, hout⟩

theorem repliesOf_loaded {replies : List Bytes} (h : ran.map Prod.snd = replies.map some) :
    repliesOf ran = replies.flatten := by
  have hget : ran.map (fun p => p.2.getD []) = replies := by
    have hmap := congrArg (List.map fun o : Option Bytes => o.getD []) h
    rw [List.map_map, List.map_map] at hmap
    exact hmap.trans (List.map_id replies)
  rw [repliesOf, List.flatMap_def, hget]

/-- A server between two requests, with READDIR requests on one handle before it and the channel
`xs`. The handle is at the start of its directory. -/
structure Requested (env : Env) (c : Conn) (rs : List Request) (id : HandleId) (dir : Nat)
    (names : List Bytes) (xs : List Script) : Prop where
  recvState : c.recvState = none
  ran : c.ran = []
  sent : c.sent = []
  stream : c.stream = wireRequests rs
  readsDir : ∀ r ∈ rs, ReadsDir id r
  fits : ∀ r ∈ rs, r.Fits
  holds : HoldsDir env dir names c.server.trace
  lists_from : ListsFrom c.server.ssh id dir names [] names
  waits : ∀ x ∈ xs, x.Waits

/-- The replies to the requests that the run came to list the directory from its start, in batches and
without a gap, and then its end. What was sent is these replies up to what is still unsent of the last
one. -/
theorem readdir_run {c : Conn} {rs : List Request} {xs : List Script}
    (h : Requested env c rs id dir names xs) :
    ∃ done todo named ended batches rest replies unsent, rs = done ++ todo ∧
      done.map Request.reqId = named ++ ended ∧ Lists names named ended batches rest replies ∧
      (xs.foldl (Conn.step b env) c).sent ++ unsent = replies.flatten := by
  obtain ⟨todo, unsent, hserving⟩ := run_serving h.recvState h.ran h.sent h.stream
    (answered_readdir (b := b) h.holds h.lists_from h.readsDir).inTurn h.fits h.waits
  have hmem (p : Request × Option Bytes) (hp : p ∈ (xs.foldl (Conn.step b env) c).ran) :
      ReadsDir id p.1 := by
    apply h.readsDir
    rw [← hserving.order]
    exact List.mem_append_left _ (List.mem_map_of_mem hp)
  obtain ⟨named, ended, batches, rest, replies, new, hl⟩ :=
    handled_lists h.holds h.lists_from hserving.handled hmem
  refine ⟨_, todo, named, ended, batches, rest, replies, unsent, hserving.order.symm, ?_, hl.lists, ?_⟩
  · rw [List.map_map]
    exact hl.ids
  · rw [hserving.sent, repliesOf_loaded hl.loaded]

end Listed

end WolfSsh.Sftp
