import WolfSsh.Names
import WolfSsh.Lib.Fallible
import Mathlib.Data.List.DropRight

/-! The daemon's configuration: a node for what stands before every Match line, and one for each
Match line. The options that need the certificate store of Windows are not compiled in. -/

namespace WolfSsh.Sshd

open Fallible

inductive Err where
  | badArgument | badFuncArg | fatal | memory | invalidPath | notCompiled
deriving DecidableEq, Repr

inductive PrivSep where
  | separat | sandbox | off
deriving DecidableEq, Repr

inductive PermitRoot where
  | no | yes | prohibitPw | forcedCmd
deriving DecidableEq, Repr

/-- A node. A string that is not there is NULL. -/
structure Config where
  usrAppliesTo : Option Bytes
  groupAppliesTo : Option Bytes
  banner : Option Bytes
  chrootDir : Option Bytes
  hostKeyFile : Option Bytes
  hostCertFile : Option Bytes
  userCAKeysFile : Option Bytes
  authKeysFile : Option Bytes
  forceCmd : Option Bytes
  pidFile : Option Bytes
  authorizedUPNDomains : Option Bytes
  setMask : BitVec 32
  loginTimer : Nat
  port : Nat
  usePrivilegeSeparation : PrivSep
  passwordAuth : Bool
  pubKeyAuth : Bool
  permitRootLogin : PermitRoot
  permitEmptyPasswords : Bool
  authKeysFileSet : Bool
  strictModes : Bool
  useSystemCA : Bool
  useUserCAStore : Bool
deriving DecidableEq, Repr

def configNew : Config where
  usrAppliesTo := none
  groupAppliesTo := none
  banner := none
  chrootDir := none
  hostKeyFile := none
  hostCertFile := none
  userCAKeysFile := none
  authKeysFile := none
  forceCmd := none
  pidFile := none
  authorizedUPNDomains := none
  setMask := 0
  loginTimer := 120
  port := 22
  usePrivilegeSeparation := .separat
  passwordAuth := true
  pubKeyAuth := true
  permitRootLogin := .no
  permitEmptyPasswords := false
  authKeysFileSet := false
  strictModes := true
  useSystemCA := false
  useUserCAStore := false

/-! Strings and numbers. -/

/-- `isspace` in the C locale. -/
def isspace (b : UInt8) : Bool := b = 32 ∨ (9 ≤ b ∧ b ≤ 13)

def isBlank (b : UInt8) : Bool := b = 32 ∨ b = 9

def isLineEnd (b : UInt8) : Bool := b = 10 ∨ b = 32 ∨ b = 13 ∨ b = 9

/-- Without the blanks in front and the line ending. The first octet that is no blank stays. -/
def createString (s : Bytes) : Except Err Bytes :=
  match s.dropWhile isBlank with
  | [] => .error .badArgument
  | b :: rest => .ok (b :: rest.rdropWhile isLineEnd)

def copyString : Option Bytes → Except Err (Option Bytes)
  | none => .ok none
  | some s => (createString s).map some

def configIntMax : Nat := 0x7FFFFFFF

def multiplier (unit : UInt8) : Option Nat :=
  if unit = 115 ∨ unit = 83 then some 1
  else if unit = 109 ∨ unit = 77 then some 60
  else if unit = 104 ∨ unit = 72 then some (60 * 60)
  else if unit = 100 ∨ unit = 68 then some (60 * 60 * 24)
  else if unit = 119 ∨ unit = 87 then some (60 * 60 * 24 * 7)
  else none

def addGroup (total val mult : Nat) : Except Err Nat :=
  if val > configIntMax / mult then .error .badArgument
  else if total > configIntMax - val * mult then .error .badArgument
  else .ok (total + val * mult)

/-- The groups from here on, with `digits` digits of this one read. -/
def configIntFrom (isTime : Bool) (total val digits : Nat) : Bytes → Except Err Nat
  | [] =>
    if digits = 0 then .error .badArgument
    else if !isTime ∧ val = 0 ∧ digits ≠ 1 then .error .badArgument
    else addGroup total val 1
  | b :: rest =>
    if 48 ≤ b ∧ b ≤ 57 then
      let d := b.toNat - 48
      if val > (configIntMax - d) / 10 then .error .badArgument
      else configIntFrom isTime total (val * 10 + d) (digits + 1) rest
    else if digits = 0 ∨ !isTime then .error .badArgument
    else
      match multiplier b with
      | none => .error .badArgument
      | some mult => do
        let total ← addGroup total val mult
        if rest = [] then .ok total else configIntFrom isTime total 0 0 rest

def getConfigInt (s : Bytes) (isTime : Bool) : Except Err Nat :=
  if s = [] then .error .badArgument else configIntFrom isTime 0 0 0 s

/-! The options. -/

inductive Opt where
  | authKeysFile | privSep | permitEmptyPw | subsystem | challengeResponseAuth | usePam
  | x11Forwarding | printMotd | acceptEnv | protocol | loginGraceTime | hostKey | passwordAuth
  | port | permitRoot | useDns | include | chrootDir | «match» | forceCmd | hostCert
  | trustedUserCaKeys | pidfile | banner | pubkeyAuth | strictModes | trustedSystemCaKeys
  | trustedUserCaStore | winUserStores | winUserDwFlags | winUserPvPara | authorizedUpnDomains
  | hostKeyStore | hostKeyStoreSubject | hostKeyStoreFlags
deriving DecidableEq, Repr

def Opt.tag : Opt → Nat
  | .authKeysFile => 0
  | .privSep => 1
  | .permitEmptyPw => 2
  | .subsystem => 3
  | .challengeResponseAuth => 4
  | .usePam => 5
  | .x11Forwarding => 6
  | .printMotd => 7
  | .acceptEnv => 8
  | .protocol => 9
  | .loginGraceTime => 10
  | .hostKey => 11
  | .passwordAuth => 12
  | .port => 13
  | .permitRoot => 14
  | .useDns => 15
  | .include => 16
  | .chrootDir => 17
  | .match => 18
  | .forceCmd => 19
  | .hostCert => 20
  | .trustedUserCaKeys => 21
  | .pidfile => 22
  | .banner => 23
  | .pubkeyAuth => 24
  | .strictModes => 25
  | .trustedSystemCaKeys => 26
  | .trustedUserCaStore => 27
  | .winUserStores => 28
  | .winUserDwFlags => 29
  | .winUserPvPara => 30
  | .authorizedUpnDomains => 31
  | .hostKeyStore => 32
  | .hostKeyStoreSubject => 33
  | .hostKeyStoreFlags => 34

def optBitCount : Nat := 32

def Opt.hasBit (o : Opt) : Bool := o.tag < optBitCount

def Opt.bit (o : Opt) : BitVec 32 := 1#32 <<< o.tag

/-- The bit of `o` is set in `mask`. -/
def inMask (mask : BitVec 32) (o : Opt) : Bool := mask &&& o.bit ≠ 0

def options : List (Opt × Bytes) :=
  [ (.authKeysFile, ascii "AuthorizedKeysFile"),
    (.privSep, ascii "UsePrivilegeSeparation"),
    (.permitEmptyPw, ascii "PermitEmptyPasswords"),
    (.subsystem, ascii "Subsystem"),
    (.challengeResponseAuth, ascii "ChallengeResponseAuthentication"),
    (.usePam, ascii "UsePAM"),
    (.x11Forwarding, ascii "X11Forwarding"),
    (.printMotd, ascii "PrintMotd"),
    (.acceptEnv, ascii "AcceptEnv"),
    (.protocol, ascii "Protocol"),
    (.loginGraceTime, ascii "LoginGraceTime"),
    (.hostKey, ascii "HostKey"),
    (.passwordAuth, ascii "PasswordAuthentication"),
    (.pubkeyAuth, ascii "PubkeyAuthentication"),
    (.port, ascii "Port"),
    (.permitRoot, ascii "PermitRootLogin"),
    (.useDns, ascii "UseDNS"),
    (.include, ascii "Include"),
    (.chrootDir, ascii "ChrootDirectory"),
    (.match, ascii "Match"),
    (.forceCmd, ascii "ForceCommand"),
    (.hostCert, ascii "HostCertificate"),
    (.trustedUserCaKeys, ascii "TrustedUserCAKeys"),
    (.pidfile, ascii "PidFile"),
    (.banner, ascii "Banner"),
    (.strictModes, ascii "StrictModes"),
    (.trustedSystemCaKeys, ascii "wolfSSH_TrustedSystemCAKeys"),
    (.trustedUserCaStore, ascii "wolfSSH_TrustedUserCAStore"),
    (.winUserStores, ascii "wolfSSH_WinUserStores"),
    (.winUserDwFlags, ascii "wolfSSH_WinUserDwFlags"),
    (.winUserPvPara, ascii "wolfSSH_WinUserPvPara"),
    (.hostKeyStoreSubject, ascii "wolfSSH_HostKeyStoreSubject"),
    (.hostKeyStoreFlags, ascii "wolfSSH_HostKeyStoreFlags"),
    (.hostKeyStore, ascii "wolfSSH_HostKeyStore"),
    (.authorizedUpnDomains, ascii "AuthorizedUPNDomains") ]

/-! What each option writes to the node it lands on. -/

def handlePrivSep (conf : Config) (value : Bytes) : Except Err Config :=
  if value = ascii "sandbox" then .ok { conf with usePrivilegeSeparation := .sandbox }
  else if value = ascii "yes" then .ok { conf with usePrivilegeSeparation := .separat }
  else if value = ascii "no" then .ok { conf with usePrivilegeSeparation := .off }
  else .error .badArgument

def handleLoginGraceTime (conf : Config) (value : Bytes) : Except Err Config := do
  let num ← getConfigInt value true
  return { conf with loginTimer := num }

/-- The handlers of a yes or no differ in the field they write. -/
def yesNo (value : Bytes) : Except Err Bool :=
  if value = ascii "no" then .ok false
  else if value = ascii "yes" then .ok true
  else .error .badArgument

def handlePermitEmptyPw (conf : Config) (value : Bytes) : Except Err Config := do
  return { conf with permitEmptyPasswords := ← yesNo value }

def handlePwAuth (conf : Config) (value : Bytes) : Except Err Config := do
  return { conf with passwordAuth := ← yesNo value }

def handlePubKeyAuth (conf : Config) (value : Bytes) : Except Err Config := do
  return { conf with pubKeyAuth := ← yesNo value }

def handleStrictModes (conf : Config) (value : Bytes) : Except Err Config := do
  return { conf with strictModes := ← yesNo value }

def configSetSystemCA (conf : Config) (value : Bytes) : Except Err Config := do
  return { conf with useSystemCA := ← yesNo value }

def configSetUserCAStore (conf : Config) (value : Bytes) : Except Err Config := do
  return { conf with useUserCAStore := ← yesNo value }

def handlePermitRoot (conf : Config) (value : Bytes) : Except Err Config :=
  if value = ascii "no" then .ok { conf with permitRootLogin := .no }
  else if value = ascii "yes" then .ok { conf with permitRootLogin := .yes }
  else if value = ascii "prohibit-password" ∨ value = ascii "without-password" then
    .ok { conf with permitRootLogin := .prohibitPw }
  else if value = ascii "forced-commands-only" then .ok { conf with permitRootLogin := .forcedCmd }
  else .error .badArgument

def protocolVersion : Nat := 2

def handleProtocol (conf : Config) (value : Bytes) : Except Err Config := do
  let portInt ← getConfigInt value false
  if portInt = protocolVersion then .ok conf else .error .badArgument

def handlePort (conf : Config) (value : Bytes) : Except Err Config := do
  let portInt ← getConfigInt value false
  if portInt = 0 then .error .badArgument
  else if portInt ≤ 65535 then .ok { conf with port := portInt }
  else .error .badArgument

def handleChrootDir (conf : Config) (value : Bytes) : Except Err Config := do
  return { conf with chrootDir := some (← createString value) }

def configSetAuthKeysFile (conf : Config) (file : Bytes) : Except Err Config := do
  return { conf with authKeysFile := some (← createString file), authKeysFileSet := true }

/-- CA trust sources and host keys are global. -/
def checkNotInMatch (conf : Config) : Except Err Unit :=
  ensure (conf.usrAppliesTo = none ∧ conf.groupAppliesTo = none) .badArgument

/-- The options that write to a node. `value` is the first word of the line, `full` the whole of
it. -/
def setOption (conf : Config) (opt : Opt) (value full : Bytes) : Except Err Config :=
  match opt with
  | .authKeysFile => configSetAuthKeysFile conf value
  | .privSep => handlePrivSep conf value
  | .permitEmptyPw => handlePermitEmptyPw conf value
  | .subsystem | .challengeResponseAuth | .usePam | .x11Forwarding | .printMotd | .acceptEnv
  | .useDns => .ok conf
  | .protocol => handleProtocol conf value
  | .loginGraceTime => handleLoginGraceTime conf value
  | .hostKey => do
    checkNotInMatch conf
    return { conf with hostKeyFile := some (← createString value) }
  | .hostCert => do
    checkNotInMatch conf
    return { conf with hostCertFile := some (← createString value) }
  | .passwordAuth => handlePwAuth conf value
  | .pubkeyAuth => handlePubKeyAuth conf value
  | .port => handlePort conf value
  | .permitRoot => handlePermitRoot conf value
  | .chrootDir => handleChrootDir conf value
  | .forceCmd => do return { conf with forceCmd := some (← createString full) }
  | .trustedUserCaKeys => do return { conf with userCAKeysFile := some (← createString value) }
  | .trustedSystemCaKeys => do
    checkNotInMatch conf
    configSetSystemCA conf value
  | .pidfile => do return { conf with pidFile := some (← createString value) }
  | .banner => do return { conf with banner := some (← createString value) }
  | .strictModes => handleStrictModes conf value
  | .trustedUserCaStore => do
    checkNotInMatch conf
    configSetUserCAStore conf value
  | .authorizedUpnDomains => do
    return { conf with authorizedUPNDomains := some (← createString full) }
  | .winUserStores | .winUserDwFlags | .winUserPvPara | .hostKeyStore | .hostKeyStoreSubject
  | .hostKeyStoreFlags => .error .notCompiled
  | .include | .match => .error .badArgument

/-! Nodes made of other nodes. -/

/-- The values of a node, with neither its selectors nor its mask. -/
def configCopy (conf : Config) : Except Err Config := do
  return { configNew with
    banner := ← copyString conf.banner
    chrootDir := ← copyString conf.chrootDir
    hostKeyFile := ← copyString conf.hostKeyFile
    authKeysFile := ← copyString conf.authKeysFile
    hostCertFile := ← copyString conf.hostCertFile
    pidFile := ← copyString conf.pidFile
    userCAKeysFile := ← copyString conf.userCAKeysFile
    forceCmd := ← copyString conf.forceCmd
    authorizedUPNDomains := ← copyString conf.authorizedUPNDomains
    loginTimer := conf.loginTimer
    port := conf.port
    passwordAuth := conf.passwordAuth
    pubKeyAuth := conf.pubKeyAuth
    usePrivilegeSeparation := conf.usePrivilegeSeparation
    permitRootLogin := conf.permitRootLogin
    permitEmptyPasswords := conf.permitEmptyPasswords
    authKeysFileSet := conf.authKeysFileSet
    strictModes := conf.strictModes
    useSystemCA := conf.useSystemCA
    useUserCAStore := conf.useUserCAStore }

/-- `ComposeString` where the keyword is taken, and nothing where it is not. -/
def composeString (take : BitVec 32) (opt : Opt) (dst src : Option Bytes) :
    Except Err (Option Bytes) :=
  if inMask take opt then copyString src else .ok dst

/-- Every keyword that `src` set and `dst` has not taken yet. -/
def configComposeFrom (dst src : Config) : Except Err Config := do
  let take := src.setMask &&& ~~~dst.setMask
  return { dst with
    authKeysFile := ← composeString take .authKeysFile dst.authKeysFile src.authKeysFile
    authKeysFileSet :=
      if inMask take .authKeysFile then src.authKeysFileSet else dst.authKeysFileSet
    banner := ← composeString take .banner dst.banner src.banner
    chrootDir := ← composeString take .chrootDir dst.chrootDir src.chrootDir
    hostKeyFile := ← composeString take .hostKey dst.hostKeyFile src.hostKeyFile
    hostCertFile := ← composeString take .hostCert dst.hostCertFile src.hostCertFile
    userCAKeysFile :=
      ← composeString take .trustedUserCaKeys dst.userCAKeysFile src.userCAKeysFile
    forceCmd := ← composeString take .forceCmd dst.forceCmd src.forceCmd
    pidFile := ← composeString take .pidfile dst.pidFile src.pidFile
    authorizedUPNDomains :=
      ← composeString take .authorizedUpnDomains dst.authorizedUPNDomains src.authorizedUPNDomains
    loginTimer := if inMask take .loginGraceTime then src.loginTimer else dst.loginTimer
    port := if inMask take .port then src.port else dst.port
    usePrivilegeSeparation :=
      if inMask take .privSep then src.usePrivilegeSeparation else dst.usePrivilegeSeparation
    passwordAuth := if inMask take .passwordAuth then src.passwordAuth else dst.passwordAuth
    pubKeyAuth := if inMask take .pubkeyAuth then src.pubKeyAuth else dst.pubKeyAuth
    permitRootLogin :=
      if inMask take .permitRoot then src.permitRootLogin else dst.permitRootLogin
    permitEmptyPasswords :=
      if inMask take .permitEmptyPw then src.permitEmptyPasswords else dst.permitEmptyPasswords
    strictModes := if inMask take .strictModes then src.strictModes else dst.strictModes
    setMask := dst.setMask ||| take }

/-! Match lines. -/

/-- From here on, with `entrySz` octets of this entry read. -/
def matchListOk (entrySz : Nat) : Bytes → Bool
  | [] => entrySz ≠ 0
  | b :: rest =>
    if b = 42 ∨ b = 63 ∨ b = 33 then false
    else if b = 44 then entrySz ≠ 0 ∧ matchListOk 0 rest
    else matchListOk (entrySz + 1) rest

def checkMatchList (list : Bytes) : Except Err Unit := ensure (matchListOk 0 list) .fatal

/-- From here on, with `entry` read of this entry. The length of the name is a `word32`. -/
def matchListFrom (name entry : Bytes) : Bytes → Bool
  | [] => entry = name
  | b :: rest =>
    if b = 44 then
      if entry.length = name.length % 2 ^ 32 ∧ entry = name.take (name.length % 2 ^ 32) then true
      else matchListFrom name [] rest
    else matchListFrom name (entry ++ [b]) rest

def matchList (list name : Bytes) : Bool := matchListFrom name [] list

def nextToken (s : Bytes) : Bytes × Bytes :=
  let s := s.dropWhile isspace
  (s.takeWhile (!isspace ·), s.dropWhile (!isspace ·))

theorem length_nextToken (s : Bytes) :
    (nextToken s).1.length + (nextToken s).2.length ≤ s.length := by
  have hsplit := congrArg List.length
    (List.takeWhile_append_dropWhile (p := (!isspace ·)) (l := s.dropWhile isspace))
  have hdrop := (List.dropWhile_suffix (l := s) isspace).length_le
  rw [List.length_append] at hsplit
  simp only [nextToken]
  omega

def applyCriterion (config : Config) (tok name : Bytes) : Except Err Config := do
  ensure (name ≠ []) .fatal
  checkMatchList name
  let out ← createString name
  return if tok = ascii "User" then { config with usrAppliesTo := some out }
    else { config with groupAppliesTo := some out }

/-- The words that are no keyword are passed over. -/
def parseMatchCriteria (config : Config) (value : Bytes) : Except Err Config :=
  if (nextToken value).1 = [] then .ok config
  else if (nextToken value).1 = ascii "User" ∨ (nextToken value).1 = ascii "Group" then do
    let config ← applyCriterion config (nextToken value).1 (nextToken (nextToken value).2).1
    parseMatchCriteria config (nextToken (nextToken value).2).2
  else parseMatchCriteria config (nextToken value).2
termination_by value.length
decreasing_by
  all_goals
    have hvalue := length_nextToken value
    have hpt := length_nextToken (nextToken value).2
    have htok := List.length_pos_of_ne_nil ‹(nextToken value).1 ≠ []›
    omega

def countWhitespace (s : Bytes) (inv : Bool) : Nat := (s.takeWhile (isspace · != inv)).length

/-- From here on, with a selector `found` or not. -/
def checkMatchSelectorsFrom (found : Bool) (value : Bytes) : Except Err Unit :=
  let s := value.drop (countWhitespace value false)
  let len := countWhitespace s true
  let arg := (s.drop len).drop (countWhitespace (s.drop len) false)
  if s = [] then ensure (found = true) .fatal
  else if s.take len = ascii "User" ∨ s.take len = ascii "Group" then
    checkMatchSelectorsFrom true (arg.drop (countWhitespace arg true))
  else .error .fatal
termination_by value.length
decreasing_by
  rename_i _ htok
  have hpos : 0 < (s.take len).length := by rcases htok with h | h <;> rw [h] <;> decide
  rw [List.length_take] at hpos
  simp only [len, s, List.length_drop] at hpos ⊢
  omega

def checkMatchSelectors (value : Bytes) : Except Err Unit := checkMatchSelectorsFrom false value

/-! The configuration that a user gets. -/

def grpMatches (list : Bytes) (grps : List (Option Bytes)) : Bool :=
  grps.any fun grp =>
    match grp with
    | none => false
    | some grp => matchList list grp

/-- A node without a selector is the global one, and never applies. -/
def matchApplies (node : Config) (usr : Option Bytes) (grps : List (Option Bytes)) : Bool :=
  if node.usrAppliesTo = none ∧ node.groupAppliesTo = none then false
  else
    (match node.usrAppliesTo with
      | none => true
      | some list =>
        match usr with
        | none => false
        | some usr => matchList list usr) &&
    (match node.groupAppliesTo with
      | none => true
      | some list => grpMatches list grps)

/-- The list of nodes: the global one, and those of the Match lines in the order they were linked. -/
structure Configs where
  head : Config
  blocks : List Config
deriving DecidableEq, Repr

def composeFrom (usr : Option Bytes) (grps : List (Option Bytes)) (ret : Config) :
    List Config → Except Err Config
  | [] => .ok ret
  | current :: rest => do
    if matchApplies current usr grps then
      composeFrom usr grps (← configComposeFrom ret current) rest
    else composeFrom usr grps ret rest

def getUserConf (conf : Configs) (usr : Option Bytes) (grps : List (Option Bytes)) :
    Option Config :=
  match configCopy conf.head with
  | .error _ => none
  | .ok ret => (composeFrom usr grps ret (conf.head :: conf.blocks)).toOption

end WolfSsh.Sshd
