import WolfSsh.ScpRecvPath

/-! The operations of the receive callback of SCP by the places that they reach: they enter, leave
and open in the directory that the session stands in. -/

namespace WolfSsh.Scp

section Callback

variable {b : ScpBuild} {base name : Bytes} {stack : List Bytes} {s : RecvState}
  {h : List ScpEvent}

theorem Reaches.still {α : Type} {c : ScpCall} {f : c.Ans → ScpSys α}
    {post : α → List ScpEvent → Prop} (hmade : ∀ r, Placed base stack name h ⟨c, r⟩)
    (hstill : ∀ r, Still ⟨c, r⟩)
    (hf : ∀ r h', places h' = places h → Reaches base stack name post (f r) h') :
    Reaches base stack name post (Calls.ask c >>= f) h := by
  refine Calls.Guards.call (fun r _ => hmade r) fun r _ => hf r _ ?_
  rw [places_concat, hstill r]

theorem Standing.congr {h' : List ScpEvent} (hs : Standing b base stack s h)
    (hplaces : places h' = places h) : Standing b base stack s h' :=
  ⟨hs.path, hs.baseSz, hs.depth, hs.names, by rw [hplaces]; exact hs.dirFd,
    by rw [hplaces]; exact hs.records⟩

/-- The session with the name on its path. -/
def joinedWith (s : RecvState) (base : Bytes) (stack : List Bytes) (name : Bytes) : RecvState :=
  { s with scpRecvPath := some (joinPath (stackPath base stack) name) }

theorem join_cases (hs : Standing b base stack s h) (name : Bytes) :
    scpRecvPathJoin s name = .error .bufferE ∨
      scpRecvPathJoin s name = .ok (joinedWith s base stack name) := by
  rw [scpRecvPathJoin, hs.path]
  dsimp only
  by_cases hlen : defaultScpFileNameSz ≤ (joinPath (stackPath base stack) name).length
  · rw [if_pos hlen]
    exact Or.inl rfl
  · rw [if_neg hlen]
    exact Or.inr rfl

theorem up_joined (hs : Standing b base stack s h) (hname : admittedName name = true) :
    scpRecvPathUp (joinedWith s base stack name) = s := by
  have hup := upPath_joinPath (@ascends_stackPath base stack hs.names)
    (admittedName_iff.mp hname).2
  rw [scpRecvPathUp, joinedWith]
  dsimp only
  rw [Option.map_some, hs.baseSz, hup, ← hs.path, ← hs.baseSz]

def EnterPost (b : ScpBuild) (base : Bytes) (stack : List Bytes) (name : Bytes)
    (r : RecvState × Except RecvErr Unit) (h : List ScpEvent) : Prop :=
  match r with
  | (s, .ok ()) =>
    Standing b base (name :: stack) { s with scpDirDepth := s.scpDirDepth + 1 } h
  | (s, .error _) => Standing b base stack s h

theorem enterPost_path (hs : Standing b base stack s h) (hdir : b.haveDirFd = false)
    (hname : admittedName name = true) :
    EnterPost b base stack name (joinedWith s base stack name, .ok ()) h := by
  refine ⟨rfl, hs.baseSz, ?_, ?_, ?_, ?_⟩
  · exact congrArg (· + 1) hs.depth
  · intro d hd
    rcases List.mem_cons.mp hd with rfl | hd
    · exact hname
    · exact hs.names d hd
  · intro h
    rw [hdir] at h
    cases h
  · intro h
    rw [hdir] at h
    cases h

theorem dirEnterPath_reaches (hs : Standing b base stack s h) (hdir : b.haveDirFd = false)
    (hname : admittedName name = true) (mode : Nat) :
    Reaches base stack name (EnterPost b base stack name)
      (dirEnterPath b (joinedWith s base stack name) mode) h := by
  have hup := up_joined hs hname
  have hprobe : ∀ h', places h' = places h → Reaches base stack name
      (EnterPost b base stack name)
      (probeDir b (joinPath (stackPath base stack) name) >>= fun dir =>
        if dir then Pure.pure (joinedWith s base stack name, Except.ok ())
        else Pure.pure (scpRecvPathUp (joinedWith s base stack name),
          Except.error RecvErr.invalidPathE)) h' := by
    intro h' hplaces
    rw [probeDir, hup]
    by_cases hsym : b.haveSymlink = true
    · rw [if_pos hsym]
      refine Reaches.still (c := ScpCall.isDirNoFollow _) (fun _ => Or.inl ⟨rfl, hname⟩)
        (fun _ _ => rfl) ?_
      intro (dir : Bool) h'' hplaces'
      have hs'' := hs.congr (hplaces'.trans hplaces)
      cases dir with
      | true => exact Calls.Guards.pure (enterPost_path hs'' hdir hname)
      | false => exact Calls.Guards.pure hs''
    · rw [if_neg hsym]
      exact Calls.Guards.pure (enterPost_path (hs.congr hplaces) hdir hname)
  refine Reaches.still (c := ScpCall.mkdir _ _) (fun _ => ⟨rfl, hname⟩) (fun _ _ => rfl) ?_
  intro r h' hplaces
  cases r with
  | failed =>
    rw [hup]
    exact Calls.Guards.pure (hs.congr hplaces)
  | made => exact hprobe h' hplaces
  | «exists» => exact hprobe h' hplaces

theorem places_close (h : List ScpEvent) (fd : Nat) (r : (ScpCall.close fd).Ans) :
    places (h ++ [⟨.close fd, r⟩]) = (places h).put fd none := places_concat _ _

/-- Records of the parents are not touched by what is learnt of the directory itself. -/
theorem Records.learn {v : Places} {idents : List Ident} (hrec : Records v stack idents)
    (ident : Ident) :
    Records { v with ident := Function.update v.ident stack (some ident) } stack idents := by
  apply hrec.congr
  intro below hlt
  have hne : below ≠ stack := fun heq => by rw [heq] at hlt; omega
  exact Function.update_of_ne hne _ _

/-- What ScpRecvDirEnter knows once the new directory `fd` is open. -/
structure Entering (stack : List Bytes) (name : Bytes) (idents : List Ident) (parent fd : Nat)
    (h : List ScpEvent) : Prop where
  ne : parent ≠ fd
  parent : (places h).place parent = some (.dir stack)
  entered : (places h).place fd = some (.dir (name :: stack))
  records : Records (places h) stack idents

theorem Entering.congr {idents : List Ident} {parent fd : Nat} {h' : List ScpEvent}
    (he : Entering stack name idents parent fd h) (hplaces : places h' = places h) :
    Entering stack name idents parent fd h' :=
  ⟨he.ne, by rw [hplaces]; exact he.parent, by rw [hplaces]; exact he.entered,
    by rw [hplaces]; exact he.records⟩

theorem parentRecord_reaches {idents : List Ident} {parent fd : Nat}
    (he : Entering stack name idents parent fd h) :
    Reaches base stack name (fun r h' => Entering stack name idents parent fd h' ∧
      ∀ ident, r = some ident → (places h').ident stack = some ident)
      (parentRecord parent fd) h := by
  refine Reaches.still (c := ScpCall.searchable fd) (fun _ => trivial) (fun _ _ => rfl) ?_
  intro (searchable : Bool) h' hplaces
  have he' := he.congr hplaces
  cases searchable with
  | false => exact Calls.Guards.pure ⟨he', nofun⟩
  | true =>
    refine Calls.Guards.call (c := ScpCall.fstat parent) (fun _ _ => trivial) ?_
    intro r _
    cases r with
    | none =>
      have hsame : places (h' ++ [⟨ScpCall.fstat parent, none⟩]) = places h' := places_concat _ _
      exact Calls.Guards.pure ⟨he'.congr hsame, nofun⟩
    | some ident =>
      have hlook : places (h' ++ [⟨ScpCall.fstat parent, some ident⟩]) =
          { places h' with ident := Function.update (places h').ident stack (some ident) } := by
        rw [places_concat]
        change (places h').look parent ident = _
        rw [Places.look, he'.parent]
      have he'' : Entering stack name idents parent fd
          (h' ++ [⟨ScpCall.fstat parent, some ident⟩]) :=
        ⟨he.ne, by rw [hlook]; exact he'.parent, by rw [hlook]; exact he'.entered,
          by rw [hlook]; exact he'.records.learn ident⟩
      have hident : (places (h' ++ [⟨ScpCall.fstat parent, some ident⟩])).ident stack =
          some ident := by
        rw [hlook]
        exact Function.update_self _ _ _
      refine Reaches.still (c := ScpCall.malloc 32) (fun _ => trivial) (fun _ _ => rfl) ?_
      intro (stored : Bool) h'' hplaces'
      cases stored with
      | false => exact Calls.Guards.pure ⟨he''.congr hplaces', nofun⟩
      | true =>
        refine Calls.Guards.pure ⟨he''.congr hplaces', ?_⟩
        rintro _ ⟨⟩
        rw [hplaces']
        exact hident

theorem dirEnterAt_reaches (hs : Standing b base stack s h) (hdir : b.haveDirFd = true)
    (hname : admittedName name = true) {parent : Nat} (hparent : s.scpRecvDirFd = some parent)
    (mode : Nat) :
    Reaches base stack name (EnterPost b base stack name)
      (dirEnterAt (joinedWith s base stack name) parent name mode) h := by
  have hup := up_joined hs hname
  have hplace : (places h).place parent = some (.dir stack) := by
    obtain ⟨fd, hfd, hplace⟩ := hs.dirFd hdir
    rw [hparent, Option.some.injEq] at hfd
    exact hfd ▸ hplace
  -- a close of the new directory leads back
  have hfail : ∀ {h' : List ScpEvent} {fd : Nat},
      Entering stack name s.scpRecvDirs parent fd h' →
      Reaches base stack name (EnterPost b base stack name) (do
        wclose fd
        return (scpRecvPathUp (joinedWith s base stack name), .error .invalidPathE)) h' := by
    intro h' fd he
    refine Calls.Guards.call (c := ScpCall.close fd) (fun _ _ => trivial) fun r _ => ?_
    rw [hup]
    have hplaces := places_close h' fd r
    refine Calls.Guards.pure ⟨hs.path, hs.baseSz, hs.depth, hs.names, ?_, ?_⟩
    · intro _
      refine ⟨parent, hparent, ?_⟩
      rw [hplaces, Places.put_place_ne _ _ he.ne]
      exact he.parent
    · intro _
      rw [hplaces]
      exact he.records.congr fun _ _ => rfl
  -- `k` and `next` are what follows the open and the record of the parent
  have hopen : ∀ (h' : List ScpEvent) (k : Option Nat → ScpSys (RecvState × Except RecvErr Unit))
      (next : Nat → Option Ident → ScpSys (RecvState × Except RecvErr Unit)),
      k none = Pure.pure (scpRecvPathUp (joinedWith s base stack name), .error .invalidPathE) →
      (∀ fd, k (some fd) = parentRecord parent fd >>= next fd) →
      (∀ fd, next fd none = do
        wclose fd
        return (scpRecvPathUp (joinedWith s base stack name), .error .invalidPathE)) →
      (∀ fd ident, next fd (some ident) = do
        wclose parent
        return ({ joinedWith s base stack name with
          scpRecvDirs := ident :: (joinedWith s base stack name).scpRecvDirs,
          scpRecvDirFd := some fd }, .ok ())) →
      places h' = places h →
      Reaches base stack name (EnterPost b base stack name) (wopenDirAt parent name >>= k) h' := by
    intro h' k next hnone hsome hgone hnext hplaces
    have hs' := hs.congr hplaces
    have hplace' : (places h').place parent = some (.dir stack) := by rw [hplaces]; exact hplace
    refine Calls.Guards.call (c := ScpCall.openDirAt parent name)
      (fun _ _ => ⟨hplace', rfl, hname⟩) ?_
    intro r hfresh
    cases r with
    | none =>
      rw [hnone, hup]
      exact Calls.Guards.pure (hs'.congr (places_concat _ _))
    | some fd =>
      have hfree : (places h').place fd = none := hfresh fd rfl
      have hne : parent ≠ fd := by
        rintro rfl
        rw [hplace'] at hfree
        cases hfree
      have hput : places (h' ++ [⟨ScpCall.openDirAt parent name, some fd⟩]) =
          (places h').put fd (some (.dir (name :: stack))) := by
        rw [places_concat, Places.after_openDirAt hplace']
      have he : Entering stack name s.scpRecvDirs parent fd
          (h' ++ [⟨ScpCall.openDirAt parent name, some fd⟩]) := by
        refine ⟨hne, ?_, ?_, ?_⟩
        · rw [hput, Places.put_place_ne _ _ hne]
          exact hplace'
        · rw [hput, Places.put_place]
        · rw [hput]
          exact (hs'.records hdir).congr fun _ _ => rfl
      rw [hsome]
      apply (parentRecord_reaches he).bind
      rintro r h'' ⟨he', hident⟩
      cases r with
      | none =>
        rw [hgone]
        exact hfail he'
      | some ident =>
        rw [hnext]
        refine Calls.Guards.call (c := ScpCall.close parent) (fun _ _ => trivial) fun r _ => ?_
        have hclose := places_close h'' parent r
        refine Calls.Guards.pure ⟨rfl, hs.baseSz, congrArg (· + 1) hs.depth, ?_, ?_, ?_⟩
        · intro d hd
          rcases List.mem_cons.mp hd with rfl | hd
          · exact hname
          · exact hs.names d hd
        · intro _
          refine ⟨fd, rfl, ?_⟩
          rw [hclose, Places.put_place_ne _ _ he'.ne.symm]
          exact he'.entered
        · intro _
          rw [hclose]
          exact ⟨hident ident rfl, he'.records.congr fun _ _ => rfl⟩
  refine Reaches.still (c := ScpCall.mkdirAt parent name mode)
    (fun _ => ⟨hplace, rfl, hname⟩)
    (fun _ _ => rfl) ?_
  intro r h' hplaces
  cases r with
  | failed =>
    rw [hup]
    exact Calls.Guards.pure (hs.congr hplaces)
  | made => exact hopen h' _ _ rfl (fun _ => rfl) (fun _ => rfl) (fun _ _ => rfl) hplaces
  | «exists» => exact hopen h' _ _ rfl (fun _ => rfl) (fun _ => rfl) (fun _ _ => rfl) hplaces

theorem scpRecvDirEnter_reaches (hs : Standing b base stack s h)
    (hname : admittedName name = true) (mode : Nat) :
    Reaches base stack name (EnterPost b base stack name) (scpRecvDirEnter b s name mode) h := by
  rw [scpRecvDirEnter]
  by_cases hdir : b.haveDirFd = true
  · rw [if_pos hdir]
    obtain ⟨parent, hparent, -⟩ := hs.dirFd hdir
    rw [hparent]
    rcases join_cases hs name with hjoin | hjoin
    · rw [hjoin]
      exact Calls.Guards.pure hs
    · rw [hjoin]
      exact dirEnterAt_reaches hs hdir hname hparent mode
  · rw [if_neg hdir]
    rcases join_cases hs name with hjoin | hjoin
    · rw [hjoin]
      exact Calls.Guards.pure hs
    · rw [hjoin]
      exact dirEnterPath_reaches hs (by simpa using hdir) hname mode

/-- What ScpRecvDirLeave leaves of a stack that is not empty. -/
def LeavePost (b : ScpBuild) (base : Bytes) (stack : List Bytes)
    (r : RecvState × Except RecvErr Unit) (h : List ScpEvent) : Prop :=
  match r with
  | (s, .ok ()) =>
    Standing b base stack.tail { s with scpDirDepth := s.scpDirDepth - 1 } h
  | (s, .error _) => Standing b base stack s h

theorem look_above {v : Places} {fd : Nat} {below : List Bytes} {ident : Ident}
    (hident : v.ident below = some ident) :
    (v.put fd (some (.above below))).look fd ident =
      (v.put fd (some (.above below))).put fd (some (.dir below)) := by
  rw [Places.look, Places.put_place]
  exact if_pos hident

theorem look_above_ne {v : Places} {fd : Nat} {below : List Bytes} {ident other : Ident}
    (hident : v.ident below = some ident) (hne : ident ≠ other) :
    (v.put fd (some (.above below))).look fd other = v.put fd (some (.above below)) := by
  rw [Places.look, Places.put_place]
  refine if_neg ?_
  rw [Places.put_ident, hident, Option.some.injEq]
  exact hne

theorem up_standing {d : Bytes} {rest : List Bytes} (hs : Standing b base (d :: rest) s h) :
    scpRecvPathUp s = { s with scpRecvPath := some (stackPath base rest) } := by
  have hrest : ∀ e ∈ rest, admittedName e = true :=
    fun e he => hs.names e (List.mem_cons_of_mem _ he)
  have hup := upPath_joinPath (@ascends_stackPath base rest hrest)
    (admittedName_iff.mp (hs.names d List.mem_cons_self)).2
  rw [scpRecvPathUp, hs.path, hs.baseSz, Option.map_some, stackPath_cons, hup]

theorem scpRecvDirLeave_reaches (hs : Standing b base stack s h) (hne : stack ≠ []) :
    Reaches base stack name (LeavePost b base stack) (scpRecvDirLeave b s) h := by
  obtain ⟨d, rest, rfl⟩ := List.exists_cons_of_ne_nil hne
  have hup := up_standing hs
  have hdepth : s.scpDirDepth - 1 = rest.length := by
    rw [hs.depth]
    rfl
  have hnames : ∀ e ∈ rest, admittedName e = true :=
    fun e he => hs.names e (List.mem_cons_of_mem _ he)
  rw [scpRecvDirLeave]
  by_cases hdir : b.haveDirFd = true
  · rw [if_pos hdir]
    obtain ⟨old, hold, hplace⟩ := hs.dirFd hdir
    have hrec := hs.records hdir
    cases hdirs : s.scpRecvDirs with
    | nil =>
      rw [hdirs] at hrec
      exact hrec.elim
    | cons ident dirs =>
      rw [hdirs] at hrec
      obtain ⟨hident, hbelow⟩ := hrec
      rw [hold]
      refine Calls.Guards.call (c := ScpCall.openParent old) (fun _ _ => ⟨hplace, hne⟩) ?_
      intro r hfresh
      cases r with
      | none => exact Calls.Guards.pure (hs.congr (places_concat _ _))
      | some fd =>
        have hfree : (places h).place fd = none := hfresh fd rfl
        have hnefd : old ≠ fd := by
          rintro rfl
          rw [hplace] at hfree
          cases hfree
        have hput : places (h ++ [⟨ScpCall.openParent old, some fd⟩]) =
            (places h).put fd (some (.above rest)) := by
          rw [places_concat, Places.after_openParent hplace]
        refine Calls.Guards.call (c := ScpCall.fstat fd) (fun _ _ => trivial) ?_
        intro (r : Option Ident) _
        have hlook : r ≠ some ident → places (h ++ [⟨ScpCall.openParent old, some fd⟩] ++
            [⟨ScpCall.fstat fd, r⟩]) = (places h).put fd (some (.above rest)) := by
          intro hr
          rw [places_concat, hput]
          cases r with
          | none => rfl
          | some other =>
            exact look_above_ne hident (fun heq => hr (congrArg some heq.symm))
        refine Calls.Guards.ite (fun hr => ?_) fun hr => ?_
        · subst hr
          have hconfirm : places (h ++ [⟨ScpCall.openParent old, some fd⟩] ++
              [⟨ScpCall.fstat fd, some ident⟩]) =
              ((places h).put fd (some (.above rest))).put fd (some (.dir rest)) := by
            rw [places_concat, hput]
            exact look_above hident
          refine Calls.Guards.call (c := ScpCall.close old) (fun _ _ => trivial) fun r _ => ?_
          have hclose := places_close (h ++ [⟨ScpCall.openParent old, some fd⟩] ++
            [⟨ScpCall.fstat fd, some ident⟩]) old r
          rw [hconfirm] at hclose
          have hs' : scpRecvPathUp { s with scpRecvDirs := dirs, scpRecvDirFd := some fd } =
              { s with scpRecvDirs := dirs, scpRecvDirFd := some fd,
                       scpRecvPath := some (stackPath base rest) } := by
            have hpath := congrArg RecvState.scpRecvPath hup
            exact congrArg (fun p => { s with
              scpRecvDirs := dirs, scpRecvDirFd := some fd, scpRecvPath := p }) hpath
          rw [hs']
          refine Calls.Guards.pure ⟨rfl, hs.baseSz, hdepth, hnames, ?_, ?_⟩
          · intro _
            refine ⟨fd, rfl, ?_⟩
            rw [hclose, Places.put_place_ne _ _ hnefd.symm, Places.put_place]
            rfl
          · intro _
            rw [hclose]
            exact hbelow.congr fun _ _ => rfl
        · refine Calls.Guards.call (c := ScpCall.close fd) (fun _ _ => trivial) fun r' _ => ?_
          have hclose := places_close (h ++ [⟨ScpCall.openParent old, some fd⟩] ++
            [⟨ScpCall.fstat fd, r⟩]) fd r'
          rw [hlook hr] at hclose
          refine Calls.Guards.pure ⟨hs.path, hs.baseSz, hs.depth, hs.names, ?_, ?_⟩
          · intro _
            refine ⟨old, hold, ?_⟩
            rw [hclose, Places.put_place_ne _ _ hnefd, Places.put_place_ne _ _ hnefd]
            exact hplace
          · intro _
            rw [hclose]
            exact (hs.records hdir).congr fun _ _ => rfl
  · rw [if_neg hdir, hup]
    refine Calls.Guards.pure ⟨rfl, hs.baseSz, hdepth, hnames, ?_, ?_⟩
    · exact fun h => absurd h hdir
    · exact fun h => absurd h hdir

theorem scpRecvFileOpen_reaches (hs : Standing b base stack s h)
    (hname : admittedName name = true) :
    Reaches base stack name (fun r h' => Standing b base stack r.1 h')
      (scpRecvFileOpen b s name) h := by
  rw [scpRecvFileOpen]
  by_cases hdir : b.haveDirFd = true
  · rw [if_pos hdir]
    obtain ⟨dir, hfd, hplace⟩ := hs.dirFd hdir
    rw [hfd]
    refine Calls.Guards.call (c := ScpCall.openFileAt dir name) (fun _ _ => ⟨hplace, rfl, hname⟩) ?_
    intro r hfresh
    have hs' := hs.congr (places_concat h ⟨ScpCall.openFileAt dir name, r⟩)
    cases r with
    | none => exact Calls.Guards.pure hs'
    | some fd =>
      have hfree : (places h).place fd = none := hfresh fd rfl
      refine Reaches.still (c := ScpCall.fdopen fd) (fun _ => trivial) (fun _ _ => rfl) ?_
      intro r h' hplaces
      have hs'' := hs'.congr hplaces
      cases r with
      | some fp => exact Calls.Guards.pure hs''
      | none =>
        refine Calls.Guards.call (c := ScpCall.close fd) (fun _ _ => trivial) fun r _ => ?_
        have hclose := places_close h' fd r
        have hsame : places h' = places h := hplaces.trans (places_concat h _)
        refine Calls.Guards.pure ⟨hs.path, hs.baseSz, hs.depth, hs.names, ?_, ?_⟩
        · intro _
          refine ⟨dir, hfd, ?_⟩
          have hne : dir ≠ fd := by
            rintro rfl
            rw [hplace] at hfree
            cases hfree
          rw [hclose, Places.put_place_ne _ _ hne, hsame]
          exact hplace
        · intro _
          rw [hclose, hsame]
          exact (hs.records hdir).congr fun _ _ => rfl
  · rw [if_neg hdir]
    rcases join_cases hs name with hjoin | hjoin
    · rw [hjoin]
      exact Calls.Guards.pure hs
    · rw [hjoin]
      have hup := up_joined hs hname
      have hopen : ∀ h', places h' = places h → Reaches base stack name
          (fun _ h'' => places h'' = places h)
          (wfopen (joinPath (stackPath base stack) name)) h' := by
        intro h' hplaces r _
        exact ⟨⟨rfl, hname⟩, (places_concat _ _).trans hplaces⟩
      have hpath : Reaches base stack name (fun _ h' => places h' = places h)
          (fileOpenPath b (joinPath (stackPath base stack) name)) h := by
        rw [fileOpenPath, probeLink]
        by_cases hsym : b.haveSymlink = true
        · rw [if_pos hsym]
          refine Reaches.still (c := ScpCall.isSymlink _) (fun _ => ⟨rfl, hname⟩) (fun _ _ => rfl) ?_
          intro (link : Bool) h' hplaces
          cases link with
          | true => exact Calls.Guards.pure hplaces
          | false => exact hopen h' hplaces
        · rw [if_neg hsym]
          exact hopen h rfl
      apply hpath.bind
      intro r h' hplaces
      cases r with
      | none =>
        rw [hup]
        exact Calls.Guards.pure (hs.congr hplaces)
      | some fp =>
        rw [hup]
        exact Calls.Guards.pure (hs.congr hplaces)

end Callback

end WolfSsh.Scp
