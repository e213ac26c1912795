import WolfSsh.SshdConfig

/-! Loading the configuration: the lines of a file, the files of an Include, and the node that a
line lands on. -/

namespace WolfSsh.Sshd

open Fallible

/-- What the configuration is read from. A directory lists its entries, each with whether it is a
directory itself. -/
structure Files where
  openFile : Bytes → Option Bytes
  readDir : Bytes → Option (List (Bytes × Bool))
  maxFilenameSz : Nat
  pathMax : Nat

def maxIncludeDepth : Nat := 16

def maxLineSize : Nat := 1024

/-! The lines of a file. -/

def cString (bs : Bytes) : Bytes := bs.takeWhile (· ≠ 0)

/-- `fgets` with room for `n` octets: what it hands out, and what is left. -/
def fgets : Nat → Bytes → Bytes × Bytes
  | _, [] => ([], [])
  | 0, bs => ([], bs)
  | n + 1, b :: bs =>
    if b = 10 then ([b], bs) else (b :: (fgets n bs).1, (fgets n bs).2)

theorem length_fgets_le (n : Nat) (bs : Bytes) : (fgets n bs).2.length ≤ bs.length := by
  induction n generalizing bs with
  | zero => cases bs <;> exact Nat.le_refl _
  | succ n ih =>
    cases bs with
    | nil => exact Nat.le_refl _
    | cons b bs =>
      have hrest := ih bs
      rw [fgets, List.length_cons]
      split
      · exact Nat.le_succ _
      · exact Nat.le_succ_of_le hrest

theorem length_fgets_lt (n : Nat) {bs : Bytes} (hbs : bs ≠ []) :
    (fgets (n + 1) bs).2.length < bs.length := by
  cases bs with
  | nil => exact absurd rfl hbs
  | cons b bs =>
    have hrest := length_fgets_le n bs
    rw [fgets, List.length_cons]
    split
    · exact Nat.lt_succ_self _
    · exact Nat.lt_succ_of_le hrest

def pastBuffer (b : UInt8) : Bool := b ≠ 32 ∧ b ≠ 9 ∧ b ≠ 13 ∧ b ≠ 10

/-- The rest of a line that the buffer did not take: whether there is text in it, and what follows
the line. -/
def drain (bs : Bytes) : Bool × Bytes :=
  if bs = [] then (false, [])
  else
    let rest := cString (fgets 63 bs).1
    if rest.getLast? = some 10 then (rest.any pastBuffer, (fgets 63 bs).2)
    else (rest.any pastBuffer || (drain (fgets 63 bs).2).1, (drain (fgets 63 bs).2).2)
termination_by bs.length
decreasing_by all_goals exact length_fgets_lt 62 ‹_›

theorem length_drain_le (bs : Bytes) : (drain bs).2.length ≤ bs.length := by
  induction bs using drain.induct with
  | case1 => simp [drain]
  | case2 bs hbs rest hlast =>
    rw [drain, if_neg hbs, if_pos hlast]
    exact length_fgets_le 63 bs
  | case3 bs hbs rest hlast ih =>
    rw [drain, if_neg hbs, if_neg hlast]
    exact ih.trans (length_fgets_le 63 bs)

/-- The lines that the loop gets to see, and which of them are too long. -/
def configLines (bs : Bytes) : List (Bytes × Bool) :=
  if bs = [] then []
  else
    let current := cString (fgets (maxLineSize - 1) bs).1
    let bs' := (fgets (maxLineSize - 1) bs).2
    if current.length = maxLineSize - 1 ∧ current.getLast? ≠ some 10 then
      (current, (drain bs').1) :: configLines (drain bs').2
    else (current, false) :: configLines bs'
termination_by bs.length
decreasing_by
  · exact Nat.lt_of_le_of_lt (length_drain_le _) (length_fgets_lt 1022 ‹_›)
  · exact length_fgets_lt 1022 ‹_›

/-! What an Include names. -/

/-- Where the wildcard stands in the last part of the path: what is in front of it and what is
behind it. A slash ends the search. -/
def wildcard (value : Bytes) : Option (Bytes × Bytes) :=
  let last := (value.reverse.dropWhile isspace).length - 1
  let scanned := (value.take (last + 1)).reverse
  let behind := scanned.takeWhile fun b => b ≠ 42 ∧ b ≠ 47
  match scanned.dropWhile fun b => b ≠ 42 ∧ b ≠ 47 with
  | 42 :: front =>
    some (front.reverse, if behind = [] then [] else value.drop (front.length + 1))
  | _ => none

/-- The directory, and what a name starts with. A slash that stands first is part of the name. -/
def splitPath (front : Bytes) : Bytes × Bytes :=
  match front.reverse.dropWhile (· ≠ 47) with
  | _ :: b :: dir => ((b :: dir).reverse, (front.reverse.takeWhile (· ≠ 47)).reverse)
  | _ => (ascii ".", front)

/-- As in glob, a leading dot is only matched by a literal one. -/
def nameMatches (start stop name : Bytes) : Bool :=
  start.length + stop.length ≤ name.length ∧
  ¬(name.head? = some 46 ∧ start.head? ≠ some 46) ∧
  name.take start.length = start ∧
  name.drop (name.length - stop.length) = stop

def insertName (name : Bytes) : List Bytes → List Bytes
  | [] => [name]
  | n :: ns => if name < n then name :: n :: ns else n :: insertName name ns

def fileNames (entries : List (Bytes × Bool)) : List Bytes :=
  (entries.filter (!·.2)).foldl (fun names e => insertName e.1 names) []

/-- The list of nodes, and the one that a line lands on: one of the Match lines, or the global
one. -/
structure Loading where
  confs : Configs
  cursor : Option Nat
deriving DecidableEq, Repr

def Configs.node (confs : Configs) : Option Nat → Config
  | none => confs.head
  | some i => confs.blocks.getD i configNew

def Configs.setNode (confs : Configs) (cursor : Option Nat) (node : Config) : Configs :=
  match cursor with
  | none => { confs with head := node }
  | some i => { confs with blocks := confs.blocks.set i node }

/-- Load a file into the list, from a node on. -/
abbrev Load := Configs → Option Nat → Bytes → Except Err Configs

def loadAll (pathMax : Nat) (load : Load) (cursor : Option Nat) (path : Bytes) :
    Configs → List Bytes → Except Err Configs
  | confs, [] => .ok confs
  | confs, name :: names => do
    let filepath := path ++ 47 :: name
    ensure (filepath.length < pathMax) .invalidPath
    loadAll pathMax load cursor path (← load confs cursor filepath) names

def handleInclude (fs : Files) (load : Load) (confs : Configs) (cursor : Option Nat)
    (value : Bytes) : Except Err Configs :=
  if value = [] then .error .badArgument
  else
    match wildcard value with
    | none => load confs cursor value
    | some (front, stop) =>
      let (path, start) := splitPath front
      match fs.readDir path with
      | none => .error .invalidPath
      | some entries =>
        loadAll fs.pathMax load cursor path confs
          ((fileNames entries).filter (nameMatches start stop))

/-- A node with the selectors of the line, linked at the end of the list. -/
def handleMatch (confs : Configs) (value : Bytes) : Except Err Loading := do
  checkMatchSelectors value
  match configCopy confs.head with
  | .error _ => .error .memory
  | .ok newConf =>
    let newConf ← parseMatchCriteria newConf value
    return ⟨{ confs with blocks := confs.blocks ++ [newConf] }, some confs.blocks.length⟩

def handleConfigOption (fs : Files) (load : Load) (s : Loading) (opt : Opt) (value full : Bytes) :
    Except Err Loading :=
  match opt with
  | .include => do return { s with confs := ← handleInclude fs load s.confs s.cursor value }
  | .match => handleMatch s.confs full
  | _ => do
    let node ← setOption (s.confs.node s.cursor) opt value full
    let node := if opt.hasBit then { node with setMask := node.setMask ||| opt.bit } else node
    return { s with confs := s.confs.setNode s.cursor node }

/-- The option whose whole name the line starts with. -/
def findOption (l : Bytes) : Option (Opt × Bytes) :=
  options.find? fun (_, name) =>
    name.isPrefixOf l ∧ (l.drop name.length).head?.all isspace

def parseConfigLine (fs : Files) (load : Load) (s : Loading) (l : Bytes) : Except Err Loading :=
  match findOption l with
  | none => .error .fatal
  | some (opt, name) =>
    let full := (l.drop name.length).drop (countWhitespace (l.drop name.length) false)
    let value := full.take (countWhitespace full true)
    if value.length ≥ fs.maxFilenameSz then .error .fatal
    else handleConfigOption fs load s opt value full

def parseLines (fs : Files) (load : Load) : Loading → List (Bytes × Bool) → Except Err Loading
  | s, [] => .ok s
  | s, (line, tooLong) :: lines =>
    let current := line.dropWhile isBlank
    if current.head? = some 35 then parseLines fs load s lines
    else if tooLong then .error .fatal
    else if current.length ≤ 2 then parseLines fs load s lines
    else do parseLines fs load (← parseConfigLine fs load s current) lines

/-- With so many levels of Include left. -/
def configLoadFrom (fs : Files) : Nat → Load
  | 0, _, _, _ => .error .badArgument
  | left + 1, confs, cursor, filename =>
    match fs.openFile filename with
    | none => .error .badFuncArg
    | some bytes => do
      let s ← parseLines fs (configLoadFrom fs left) ⟨confs, cursor⟩ (configLines bytes)
      return s.confs

/-- `wolfSSHD_ConfigLoad` into a new configuration. -/
def configLoad (fs : Files) (filename : Bytes) : Except Err Configs :=
  configLoadFrom fs maxIncludeDepth ⟨configNew, []⟩ none filename

end WolfSsh.Sshd
