import WolfSsh.SshdConfig
import WolfSsh.Lib.Layers

/-! The keywords that a Match block can override: what a line gives them, and what is taken from a
node that has set them. -/

namespace WolfSsh.Sshd

open Fallible Layers

inductive Keyword where
  | authKeysFile | banner | chrootDir | hostKey | hostCert | trustedUserCaKeys | forceCmd | pidfile
  | authorizedUpnDomains | loginGraceTime | port | privSep | passwordAuth | pubkeyAuth | permitRoot
  | permitEmptyPw | strictModes
deriving DecidableEq, Repr

inductive Value where
  | text (s : Option Bytes)
  | keysFile (s : Option Bytes) (set : Bool)
  | number (n : Nat)
  | flag (b : Bool)
  | privSep (p : PrivSep)
  | permitRoot (p : PermitRoot)
deriving DecidableEq, Repr

def Keyword.opt : Keyword → Opt
  | .authKeysFile => .authKeysFile
  | .banner => .banner
  | .chrootDir => .chrootDir
  | .hostKey => .hostKey
  | .hostCert => .hostCert
  | .trustedUserCaKeys => .trustedUserCaKeys
  | .forceCmd => .forceCmd
  | .pidfile => .pidfile
  | .authorizedUpnDomains => .authorizedUpnDomains
  | .loginGraceTime => .loginGraceTime
  | .port => .port
  | .privSep => .privSep
  | .passwordAuth => .passwordAuth
  | .pubkeyAuth => .pubkeyAuth
  | .permitRoot => .permitRoot
  | .permitEmptyPw => .permitEmptyPw
  | .strictModes => .strictModes

def Keyword.all : List Keyword :=
  [.authKeysFile, .banner, .chrootDir, .hostKey, .hostCert, .trustedUserCaKeys, .forceCmd,
    .pidfile, .authorizedUpnDomains, .loginGraceTime, .port, .privSep, .passwordAuth, .pubkeyAuth,
    .permitRoot, .permitEmptyPw, .strictModes]

def Config.value (c : Config) : Keyword → Value
  | .authKeysFile => .keysFile c.authKeysFile c.authKeysFileSet
  | .banner => .text c.banner
  | .chrootDir => .text c.chrootDir
  | .hostKey => .text c.hostKeyFile
  | .hostCert => .text c.hostCertFile
  | .trustedUserCaKeys => .text c.userCAKeysFile
  | .forceCmd => .text c.forceCmd
  | .pidfile => .text c.pidFile
  | .authorizedUpnDomains => .text c.authorizedUPNDomains
  | .loginGraceTime => .number c.loginTimer
  | .port => .number c.port
  | .privSep => .privSep c.usePrivilegeSeparation
  | .passwordAuth => .flag c.passwordAuth
  | .pubkeyAuth => .flag c.pubKeyAuth
  | .permitRoot => .permitRoot c.permitRootLogin
  | .permitEmptyPw => .flag c.permitEmptyPasswords
  | .strictModes => .flag c.strictModes

/-- The keyword of an option that a block can override. -/
def Opt.keyword? (o : Opt) : Option Keyword := Keyword.all.find? (·.opt = o)

/-- What a line gives a keyword, by itself. -/
def Keyword.read (k : Keyword) (value full : Bytes) : Except Err Value :=
  (setOption configNew k.opt value full).map (·.value k)

/-- What a node has set itself, with its values. -/
def Config.layer (c : Config) : Layer Keyword Value := ⟨fun k => inMask c.setMask k.opt, c.value⟩

theorem Keyword.opt_inj {k k' : Keyword} (h : k.opt = k'.opt) : k = k' := by
  cases k <;> cases k' <;> first | rfl | cases h

theorem Keyword.keyword?_opt (k : Keyword) : k.opt.keyword? = some k := by
  cases k <;> rfl

theorem Opt.opt_of_keyword? {o : Opt} {k : Keyword} (h : o.keyword? = some k) : k.opt = o := by
  simpa using List.find?_some h

theorem Keyword.hasBit (k : Keyword) : k.opt.hasBit = true := by
  cases k <;> rfl

/-! Masks. -/

theorem inMask_eq_getLsbD {o : Opt} (ho : o.hasBit = true) (mask : BitVec 32) :
    inMask mask o = mask.getLsbD o.tag := by
  have hlt : o.tag < 32 := of_decide_eq_true ho
  have hpow : BitVec.twoPow 32 o.tag ≠ 0#32 := by
    intro hzero
    have hbit := congrArg (fun x : BitVec 32 => x.getLsbD o.tag) hzero
    simp [hlt] at hbit
  rw [inMask, Opt.bit, ← BitVec.twoPow_eq, BitVec.and_twoPow]
  cases mask.getLsbD o.tag <;> simp [hpow]

theorem Opt.tag_inj {o o' : Opt} (h : o.tag = o'.tag) : o = o' := by
  cases o <;> cases o' <;> first | rfl | cases h

theorem inMask_or_bit {o o' : Opt} (ho : o.hasBit = true) (mask : BitVec 32) :
    inMask (mask ||| o'.bit) o = (inMask mask o || decide (o' = o)) := by
  have hlt : o.tag < 32 := of_decide_eq_true ho
  rw [inMask_eq_getLsbD ho, inMask_eq_getLsbD ho, BitVec.getLsbD_or, Opt.bit, ← BitVec.twoPow_eq,
    BitVec.getLsbD_twoPow]
  congr 1
  by_cases hsame : o' = o
  · simp [hsame, hlt]
  · have htag : o'.tag ≠ o.tag := fun h => hsame (Opt.tag_inj h)
    simp [hsame, htag]

/-! Strings that a node holds are copied as they are. -/

def CleanString (s : Option Bytes) : Prop := copyString s = .ok s

structure Clean (c : Config) : Prop where
  banner : CleanString c.banner
  chrootDir : CleanString c.chrootDir
  hostKeyFile : CleanString c.hostKeyFile
  hostCertFile : CleanString c.hostCertFile
  userCAKeysFile : CleanString c.userCAKeysFile
  authKeysFile : CleanString c.authKeysFile
  forceCmd : CleanString c.forceCmd
  pidFile : CleanString c.pidFile
  authorizedUPNDomains : CleanString c.authorizedUPNDomains

theorem createString_again {s t : Bytes} (h : createString s = .ok t) :
    createString t = .ok t := by
  rw [createString] at h
  cases hs : s.dropWhile isBlank with
  | nil =>
    rw [hs] at h
    cases h
  | cons b rest =>
    have hb := List.head?_dropWhile_not isBlank s
    rw [hs] at h hb
    obtain rfl := Except.ok.inj h
    simp only [List.head?_cons] at hb
    rw [createString, List.dropWhile_cons_of_neg (by simp [hb])]
    dsimp only
    rw [List.rdropWhile_idempotent]

theorem cleanString_created {s t : Bytes} (h : createString s = .ok t) : CleanString (some t) := by
  rw [CleanString, copyString, createString_again h]
  rfl

theorem clean_configNew : Clean configNew := by
  constructor <;> rfl

theorem configCopy_of_clean {c : Config} (h : Clean c) :
    configCopy c =
      .ok { c with usrAppliesTo := none, groupAppliesTo := none, setMask := 0 } := by
  rw [configCopy, h.banner, h.chrootDir, h.hostKeyFile, h.authKeysFile, h.hostCertFile, h.pidFile,
    h.userCAKeysFile, h.forceCmd, h.authorizedUPNDomains]
  rfl

/-! A line that a node takes. -/

/-- What a line for `opt` may change of a node. -/
structure Sets (opt : Opt) (value full : Bytes) (c c' : Config) : Prop where
  given : ∀ k : Keyword, k.opt = opt → k.read value full = .ok (c'.value k)
  kept : ∀ k : Keyword, k.opt ≠ opt → c'.value k = c.value k
  usr : c'.usrAppliesTo = c.usrAppliesTo
  group : c'.groupAppliesTo = c.groupAppliesTo
  mask : c'.setMask = c.setMask
  clean : Clean c → Clean c'

theorem Sets.of_keyword {k : Keyword} {opt : Opt} {value full : Bytes} {c c' : Config}
    (hk : opt.keyword? = some k) (hread : k.read value full = .ok (c'.value k))
    (hkept : ∀ k' : Keyword, k' ≠ k → c'.value k' = c.value k')
    (husr : c'.usrAppliesTo = c.usrAppliesTo) (hgroup : c'.groupAppliesTo = c.groupAppliesTo)
    (hmask : c'.setMask = c.setMask) (hclean : Clean c → Clean c') :
    Sets opt value full c c' where
  given k' hk' := by
    obtain rfl := Keyword.opt_inj (hk'.trans (Opt.opt_of_keyword? hk).symm)
    exact hread
  kept k' hk' := hkept k' fun h => hk' (by rw [h, Opt.opt_of_keyword? hk])
  usr := husr
  group := hgroup
  mask := hmask
  clean := hclean

theorem Sets.of_none {opt : Opt} {value full : Bytes} {c c' : Config}
    (hopt : opt.keyword? = none) (hvalue : c'.value = c.value)
    (husr : c'.usrAppliesTo = c.usrAppliesTo) (hgroup : c'.groupAppliesTo = c.groupAppliesTo)
    (hmask : c'.setMask = c.setMask) (hclean : Clean c → Clean c') : Sets opt value full c c' where
  given k hk := by
    rw [← hk, k.keyword?_opt] at hopt
    cases hopt
  kept k _ := congrFun hvalue k
  usr := husr
  group := hgroup
  mask := hmask
  clean := hclean

theorem setOption_sets {c c' : Config} {opt : Opt} {value full : Bytes}
    (h : setOption c opt value full = .ok c') : Sets opt value full c c' := by
  cases opt
  case subsystem | challengeResponseAuth | usePam | x11Forwarding | printMotd | acceptEnv | useDns =>
    obtain rfl := Except.ok.inj h
    exact .of_none rfl rfl rfl rfl rfl id
  case winUserStores | winUserDwFlags | winUserPvPara | hostKeyStore | hostKeyStoreSubject |
      hostKeyStoreFlags | «include» | «match» =>
    cases h
  case protocol =>
    simp only [setOption, handleProtocol, ok_bind_iff] at h
    obtain ⟨n, -, h⟩ := h
    split at h
    · obtain rfl := Except.ok.inj h
      exact .of_none rfl rfl rfl rfl rfl id
    · cases h
  case trustedSystemCaKeys | trustedUserCaStore =>
    simp only [setOption, configSetSystemCA, configSetUserCAStore, ok_bind_iff, ok_pure_iff] at h
    obtain ⟨-, -, b, -, rfl⟩ := h
    exact .of_none rfl rfl rfl rfl rfl fun hc => by cases hc; constructor <;> assumption
  case authKeysFile | banner | chrootDir | trustedUserCaKeys | forceCmd | pidfile |
      authorizedUpnDomains =>
    simp only [setOption, configSetAuthKeysFile, handleChrootDir, ok_bind_iff, ok_pure_iff] at h
    obtain ⟨s, hs, rfl⟩ := h
    refine .of_keyword rfl ?_ ?_ rfl rfl rfl fun hc => ?_
    · simp only [Keyword.read, Keyword.opt, setOption, configSetAuthKeysFile, handleChrootDir, hs]
      rfl
    · intro k hk
      cases k <;> first | rfl | exact absurd rfl hk
    · have hclean := cleanString_created hs
      cases hc
      constructor <;> assumption
  case hostKey | hostCert =>
    simp only [setOption, ok_bind_iff, ok_pure_iff] at h
    obtain ⟨-, -, s, hs, rfl⟩ := h
    refine .of_keyword rfl ?_ ?_ rfl rfl rfl fun hc => ?_
    · simp only [Keyword.read, Keyword.opt, setOption, hs]
      rfl
    · intro k hk
      cases k <;> first | rfl | exact absurd rfl hk
    · have hclean := cleanString_created hs
      cases hc
      constructor <;> assumption
  case permitEmptyPw | passwordAuth | pubkeyAuth | strictModes =>
    simp only [setOption, handlePermitEmptyPw, handlePwAuth, handlePubKeyAuth, handleStrictModes,
      ok_bind_iff, ok_pure_iff] at h
    obtain ⟨b, hb, rfl⟩ := h
    refine .of_keyword rfl ?_ ?_ rfl rfl rfl fun hc => ?_
    · simp only [Keyword.read, Keyword.opt, setOption, handlePermitEmptyPw, handlePwAuth,
        handlePubKeyAuth, handleStrictModes, hb]
      rfl
    · intro k hk
      cases k <;> first | rfl | exact absurd rfl hk
    · cases hc
      constructor <;> assumption
  case loginGraceTime =>
    simp only [setOption, handleLoginGraceTime, ok_bind_iff, ok_pure_iff] at h
    obtain ⟨n, hn, rfl⟩ := h
    refine .of_keyword rfl ?_ ?_ rfl rfl rfl fun hc => ?_
    · simp only [Keyword.read, Keyword.opt, setOption, handleLoginGraceTime, hn]
      rfl
    · intro k hk
      cases k <;> first | rfl | exact absurd rfl hk
    · cases hc
      constructor <;> assumption
  case port =>
    simp only [setOption, handlePort, ok_bind_iff] at h
    obtain ⟨n, hn, h⟩ := h
    split at h
    · cases h
    · rename_i hzero
      split at h
      · rename_i hmax
        obtain rfl := Except.ok.inj h
        refine .of_keyword rfl ?_ ?_ rfl rfl rfl fun hc => ?_
        · simp only [Keyword.read, Keyword.opt, setOption, handlePort, hn]
          simp only [bind, Except.bind, if_neg hzero, if_pos hmax]
          rfl
        · intro k hk
          cases k <;> first | rfl | exact absurd rfl hk
        · cases hc
          constructor <;> assumption
      · cases h
  case privSep | permitRoot =>
    simp only [setOption, handlePrivSep, handlePermitRoot] at h
    repeat' split at h
    all_goals
      cases h
    all_goals
      refine .of_keyword rfl ?_ ?_ rfl rfl rfl fun hc => ?_
      · first
        | rcases ‹_ ∨ _› with rfl | rfl <;> rfl
        | obtain rfl := ‹value = _›
          rfl
      · intro k hk
        cases k <;> first | rfl | exact absurd rfl hk
      · cases hc
        constructor <;> assumption

/-! What is taken from a node. -/

theorem composeString_of_clean {src : Option Bytes} (h : CleanString src) (take : BitVec 32)
    (opt : Opt) (dst : Option Bytes) :
    composeString take opt dst src = .ok (if inMask take opt then src else dst) := by
  rw [composeString]
  split
  · exact h
  · rfl

theorem inMask_take {o : Opt} (ho : o.hasBit = true) (dst src : BitVec 32) :
    inMask (src &&& ~~~dst) o = (inMask src o && !inMask dst o) := by
  have hlt : o.tag < 32 := of_decide_eq_true ho
  rw [inMask_eq_getLsbD ho, inMask_eq_getLsbD ho, inMask_eq_getLsbD ho, BitVec.getLsbD_and,
    BitVec.getLsbD_not]
  simp [hlt]

theorem inMask_taken {o : Opt} (ho : o.hasBit = true) (dst src : BitVec 32) :
    inMask (dst ||| (src &&& ~~~dst)) o = (inMask dst o || inMask src o) := by
  rw [inMask_eq_getLsbD ho, BitVec.getLsbD_or, ← inMask_eq_getLsbD ho, ← inMask_eq_getLsbD ho,
    inMask_take ho]
  cases inMask dst o <;> cases inMask src o <;> rfl

theorem configComposeFrom_layer (dst : Config) {src : Config} (h : Clean src) :
    ∃ dst', configComposeFrom dst src = .ok dst' ∧ dst'.layer = dst.layer.under src.layer := by
  refine ⟨?taken, ?run, ?layer⟩
  case run =>
    simp only [configComposeFrom, composeString_of_clean h.authKeysFile,
      composeString_of_clean h.banner, composeString_of_clean h.chrootDir,
      composeString_of_clean h.hostKeyFile, composeString_of_clean h.hostCertFile,
      composeString_of_clean h.userCAKeysFile, composeString_of_clean h.forceCmd,
      composeString_of_clean h.pidFile, composeString_of_clean h.authorizedUPNDomains]
    rfl
  case layer =>
    simp only [Config.layer, Layer.under, Layer.mk.injEq]
    constructor
    · funext k
      exact inMask_taken k.hasBit _ _
    · funext k
      have htake := inMask_take k.hasBit dst.setMask src.setMask
      generalize src.setMask &&& ~~~dst.setMask = take at htake ⊢
      refine Eq.trans (b := if inMask take k.opt then src.value k else dst.value k) ?_ ?_
      rotate_left
      · rw [htake]
        rfl
      by_cases htaken : inMask take k.opt = true
      · rw [if_pos htaken]
        cases k <;>
        · rw [Keyword.opt] at htaken
          simp only [Config.value, htaken]
          rfl
      · rw [if_neg htaken]
        cases k <;>
        · rw [Keyword.opt] at htaken
          simp only [Config.value, htaken]
          rfl

end WolfSsh.Sshd
