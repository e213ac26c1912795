import WolfSsh.SftpInTurn

/-! The requests that are left without a reply: a handler of the SFTP server loads a packet exactly
for a request that has its answer. -/

namespace WolfSsh.Sftp

open Calls

/-- The program loads something to send. -/
def Loads (env : Env) (m : Sys Outcome) (h : List Event) : Prop :=
  ∃ out, (m.run env h).1.toSend = some out

section Loads

variable {env : Env} {reqId : Nat} {h : List Event} {ssh : Session} {α : Type}

theorem not_loads_silent (ret : Code) : ¬ Loads env (pure (silent ssh ret)) h := by
  rintro ⟨out, hout⟩
  cases hout

theorem Loads.after {m : Sys α} {f : α → Sys Outcome} (hl : Loads env (m >>= f) h) :
    Loads env (f (m.run env h).1) (m.run env h).2 := by
  rw [Loads, run_bind] at hl
  exact hl

theorem Reads.bind {β γ : Type} {r : Reader β} {f : β → Reader γ} {idx i : Nat} {a : β}
    (hrun : r.runAt idx = (.ok a, i)) (hr : Reads (f a) i) : Reads (r >>= f) idx := by
  rw [Reads, Fallible.runAt_bind, hrun]
  exact hr

theorem reads_of_run {β : Type} {r : Reader β} {idx i : Nat} {a : β} (hrun : r.runAt idx = (.ok a, i)) :
    Reads r idx := ⟨a, by rw [hrun]⟩

theorem withString_of_loads {data : Bytes} {p : Bytes → Nat → Prop} {m : Sys Outcome} {ret : Code}
    (hl : Loads env m h)
    (herror : ∀ e idx, (getStringRef data).runAt 0 = (.error e, idx) → m = pure (silent ssh ret))
    (hok : ∀ str idx, (getStringRef data).runAt 0 = (.ok str, idx) → p str idx) :
    WithString data p := by
  rw [WithString]
  rcases hget : (getStringRef data).runAt 0 with ⟨e | str, idx⟩
  · rw [herror e idx hget] at hl
    exact absurd hl (not_loads_silent _)
  · exact hok str idx hget

theorem withPath_of_loads {b : Build} {str : Bytes} {p : Prop} {f : Except PathErr Bytes → Sys Outcome}
    (hl : Loads env (getAndCleanPath b ssh str >>= f) h)
    (herror : ∀ e h', e ≠ .permissions → ¬ Loads env (f (.error e)) h')
    (hp : ∀ path h', Loads env (f (.ok path)) h' → p) : WithPath b env ssh h str p := by
  have hafter := hl.after
  rw [WithPath]
  cases hpath : ((getAndCleanPath b ssh str).run env h).1 with
  | ok path =>
    rw [hpath] at hafter
    exact hp path _ hafter
  | error e =>
    rw [hpath] at hafter
    cases e with
    | permissions => trivial
    | badArgument => exact herror _ _ (by decide) hafter
    | bufferE => exact herror _ _ (by decide) hafter
    | invalidPathE => exact herror _ _ (by decide) hafter

theorem recvOpen_loads {b : Build} {data : Bytes} (hl : Loads env (recvOpen b ssh reqId data) h) :
    WithString data fun str idx => WithPath b env ssh h str
      (handleCapped ssh.fileList.length = true ∨ Reads (openTail data) idx) := by
  refine withString_of_loads hl (fun e idx hget => by rw [recvOpen, hget]) ?_
  intro str idx hget
  rw [recvOpen, hget] at hl
  refine withPath_of_loads hl ?_ ?_
  · intro e h' he
    cases e with
    | permissions => exact absurd rfl he
    | badArgument | bufferE | invalidPathE => exact not_loads_silent _
  · intro path h' hl
    dsimp only at hl
    by_cases hcap : handleCapped ssh.fileList.length = true
    · exact .inl hcap
    rw [if_neg hcap] at hl
    refine .inr ?_
    rcases hreason : (getUint32 data).runAt idx with ⟨e | reason, i⟩
    · rw [hreason] at hl
      exact absurd hl (not_loads_silent _)
    rw [hreason] at hl
    dsimp only at hl
    rcases hatr : (parseAttributesBuffer data).runAt i with ⟨e | atr, j⟩
    · rw [hatr] at hl
      exact absurd hl (not_loads_silent _)
    exact Reads.bind hreason (reads_of_run hatr)

theorem recvClose_loads {data : Bytes} (hl : Loads env (recvClose ssh reqId data) h) :
    uint32Sz ≤ data.length ∧ ato32 data + uint32Sz ≤ data.length ∧ ato32 data ≤ maxHandle := by
  rw [recvClose] at hl
  by_cases hlen : data.length < uint32Sz
  · rw [if_pos hlen] at hl
    exact absurd hl (not_loads_silent _)
  rw [if_neg hlen] at hl
  dsimp only at hl
  by_cases hsz : data.length < ato32 data + uint32Sz ∨ maxHandle < ato32 data
  · rw [if_pos hsz] at hl
    exact absurd hl (not_loads_silent _)
  omega

theorem recvRead_loads {data : Bytes} (hl : Loads env (recvRead ssh reqId data) h) :
    WithString data fun handle idx => fileOfHandle ssh handle = none ∨
      ∃ strSz, ((readTail data).runAt idx).1 = .ok strSz ∧ strSz ≤ maxSftpRw := by
  refine withString_of_loads hl (fun e idx hget => by rw [recvRead, hget]) ?_
  intro handle idx hget
  rw [recvRead, hget] at hl
  dsimp only at hl ⊢
  cases hcur : fileOfHandle ssh handle with
  | none => exact .inl rfl
  | some cur =>
    rw [hcur] at hl
    dsimp only at hl
    refine .inr ?_
    rcases hofst1 : (getUint32 data).runAt idx with ⟨e | ofst1, i⟩
    · rw [hofst1] at hl
      exact absurd hl (not_loads_silent _)
    rw [hofst1] at hl
    dsimp only at hl
    rcases hofst0 : (getUint32 data).runAt i with ⟨e | ofst0, j⟩
    · rw [hofst0] at hl
      exact absurd hl (not_loads_silent _)
    rw [hofst0] at hl
    dsimp only at hl
    rcases hsz : (getUint32 data).runAt j with ⟨e | strSz, k⟩
    · rw [hsz] at hl
      exact absurd hl (not_loads_silent _)
    rw [hsz] at hl
    dsimp only at hl
    by_cases hmax : maxSftpRw < strSz
    · rw [if_pos hmax] at hl
      exact absurd hl (not_loads_silent _)
    refine ⟨strSz, ?_, Nat.not_lt.mp hmax⟩
    rw [readTail, Fallible.runAt_bind, hofst1]
    dsimp only
    rw [Fallible.runAt_bind, hofst0]
    dsimp only
    rw [hsz]

theorem recvWrite_loads {data : Bytes} (hl : Loads env (recvWrite ssh reqId data) h) :
    ¬ WithString data fun handle idx => fileOfHandle ssh handle ≠ none ∧
      ¬ Reads (writeTail data) idx := by
  intro hstr
  obtain ⟨handle, idx, hget, hfile, hreads⟩ := hstr.found
  obtain ⟨cur, hcur⟩ := Option.ne_none_iff_exists'.mp hfile
  rw [recvWrite, hget] at hl
  dsimp only at hl
  rw [hcur] at hl
  dsimp only at hl
  rcases hofst1 : (getUint32 data).runAt idx with ⟨e | ofst1, i⟩
  · rw [hofst1] at hl
    exact not_loads_silent _ hl
  rw [hofst1] at hl
  dsimp only at hl
  rcases hofst0 : (getUint32 data).runAt i with ⟨e | ofst0, j⟩
  · rw [hofst0] at hl
    exact not_loads_silent _ hl
  rw [hofst0] at hl
  dsimp only at hl
  rcases hstr : (getStringRef data).runAt j with ⟨e | str, k⟩
  · rw [hstr] at hl
    exact not_loads_silent _ hl
  exact hreads (Reads.bind hofst1 (Reads.bind hofst0 (reads_of_run hstr)))

theorem recvFSTAT_loads {data : Bytes} (hl : Loads env (recvFSTAT ssh reqId data) h) :
    WithString data fun handle _ => fileOfHandle ssh handle ≠ none := by
  refine withString_of_loads hl (fun e idx hget => by rw [recvFSTAT, hget]) ?_
  intro handle idx hget
  rw [recvFSTAT, hget] at hl
  dsimp only at hl ⊢
  intro hnone
  rw [hnone] at hl
  exact not_loads_silent _ hl

theorem recvOpenDir_loads {b : Build} {data : Bytes}
    (hl : Loads env (recvOpenDir b ssh reqId data) h) :
    WithString data fun str _ => WithPath b env ssh h str True := by
  refine withString_of_loads hl (fun e idx hget => by rw [recvOpenDir, hget]) ?_
  intro str idx hget
  rw [recvOpenDir, hget] at hl
  refine withPath_of_loads hl ?_ fun _ _ _ => trivial
  intro e h' he
  cases e with
  | permissions => exact absurd rfl he
  | badArgument | bufferE | invalidPathE => exact not_loads_silent _

theorem recvReadDir_loads {data : Bytes} (hl : Loads env (recvReadDir ssh reqId data) h) :
    ∃ idx, (getSize data).runAt 0 = (.ok handleIdSz, idx) ∧
      findDirHandle ssh (handleIdDecode (data.drop idx)) ≠ none := by
  rw [recvReadDir] at hl
  rcases hget : (getSize data).runAt 0 with ⟨e | sz, idx⟩
  · rw [hget] at hl
    exact absurd hl (not_loads_silent _)
  rw [hget] at hl
  dsimp only at hl
  by_cases hmax : maxHandle < sz
  · rw [if_pos hmax] at hl
    exact absurd hl (not_loads_silent _)
  rw [if_neg hmax] at hl
  by_cases hsz : sz = handleIdSz
  · rw [if_neg (not_not_intro hsz)] at hl
    refine ⟨idx, by rw [hsz], ?_⟩
    intro hnone
    rw [hnone] at hl
    exact not_loads_silent _ hl
  · rw [if_pos hsz] at hl
    exact absurd hl (not_loads_silent _)

theorem recvRemove_loads {b : Build} {data : Bytes} (hl : Loads env (recvRemove b ssh reqId data) h) :
    WithString data fun str _ => str.length ≤ maxFilename := by
  refine withString_of_loads hl (fun e idx hget => by rw [recvRemove, hget]) ?_
  intro str idx hget
  rw [recvRemove, hget] at hl
  dsimp only at hl ⊢
  by_contra hlen
  rw [if_pos (Nat.not_le.mp hlen)] at hl
  exact not_loads_silent _ hl

theorem recvMKDIR_loads {b : Build} {data : Bytes} (hl : Loads env (recvMKDIR b ssh reqId data) h) :
    WithString data fun str idx => WithPath b env ssh h str
      (Reads (parseAttributesBuffer data) idx) := by
  refine withString_of_loads hl (fun e idx hget => by rw [recvMKDIR, hget]) ?_
  intro str idx hget
  rw [recvMKDIR, hget] at hl
  refine withPath_of_loads hl ?_ ?_
  · intro e h' he
    cases e with
    | permissions => exact absurd rfl he
    | badArgument | bufferE | invalidPathE => exact not_loads_silent _
  · intro path h' hl
    dsimp only at hl
    rcases hatr : (parseAttributesBuffer data).runAt idx with ⟨e | atr, j⟩
    · rw [hatr] at hl
      exact absurd hl (not_loads_silent _)
    exact reads_of_run hatr

theorem recvRealPath_loads {data : Bytes} (hl : Loads env (recvRealPath ssh reqId data) h) :
    WithString data fun str _ => str.length < maxFilename ∧
      ∀ d, startDir env ssh h = some d → ∃ s, realPath (some d) (cstr str) maxFilename = .ok s := by
  refine withString_of_loads hl (fun e idx hget => by rw [recvRealPath, hget]) ?_
  intro str idx hget
  rw [recvRealPath, hget] at hl
  dsimp only at hl ⊢
  by_cases hlen : maxFilename ≤ str.length
  · rw [if_pos hlen] at hl
    exact absurd hl (not_loads_silent _)
  rw [if_neg hlen] at hl
  refine ⟨Nat.not_le.mp hlen, ?_⟩
  intro d hd
  have hafter := hl.after
  rw [startDir] at hd
  rw [hd] at hafter
  dsimp only at hafter
  cases hs : realPath (some d) (cstr str) maxFilename with
  | ok s => exact ⟨s, rfl⟩
  | error e =>
    rw [hs] at hafter
    exact absurd hafter (not_loads_silent _)

theorem recvDo_loads {b : Build} {r : Request}
    (hl : Loads env (recvDo b ssh r.type.toNat reqId r.data) h) : Answerable b env ssh h r := by
  rw [Answerable]
  unfold recvDo at hl
  split at hl
  all_goals rename_i htype
  all_goals first | rw [htype] | skip
  · exact recvOpen_loads hl
  · exact recvClose_loads hl
  · exact recvRead_loads hl
  · exact recvWrite_loads hl
  · exact withString_of_loads hl (fun e idx hget => by rw [recvLSTAT, recvStatWith, hget])
      fun _ _ _ => trivial
  · exact recvFSTAT_loads hl
  · exact withString_of_loads hl (fun e idx hget => by rw [recvSetSTAT, hget]) fun _ _ _ => trivial
  · exact withString_of_loads hl (fun e idx hget => by rw [recvFSetSTAT, hget]) fun _ _ _ => trivial
  · exact recvOpenDir_loads hl
  · exact recvReadDir_loads hl
  · exact recvRemove_loads hl
  · exact recvMKDIR_loads hl
  · exact withString_of_loads hl (fun e idx hget => by rw [recvRMDIR, hget]) fun _ _ _ => trivial
  · exact recvRealPath_loads hl
  · exact withString_of_loads hl (fun e idx hget => by rw [recvSTAT, recvStatWith, hget])
      fun _ _ _ => trivial
  · trivial
  · split <;> trivial

/-- In every state of the server, a handler loads a reply exactly where its request has an answer. -/
theorem answered_iff (henv : Posix env) {b : Build} (t : Server) (r : Request) :
    (∃ out, (t.handle b env r).1 = some out) ↔ Answerable b env t.ssh t.trace r := by
  constructor
  · intro hloads
    exact recvDo_loads hloads
  · intro hr
    obtain ⟨type, out, hout, -⟩ := recvDo_replies henv hr
    exact ⟨out, hout⟩

end Loads

theorem answered_iff_fstat : ¬ ∃ out, (Server.start.handle {} plainEnv fstatUnknown).1 = some out := by
  rw [answered_iff plainEnv_posix]
  intro hr
  have hget : (getStringRef fstatUnknown.data).runAt 0 = (.ok (handleIdEncode (0, 0)), 12) := by
    decide +kernel
  have htype : fstatUnknown.type.toNat = 8 := rfl
  rw [Answerable, htype] at hr
  rw [WithString, hget] at hr
  exact hr (by decide +kernel)

end WolfSsh.Sftp
