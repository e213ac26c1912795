import WolfSsh.Lib.Words
import WolfSsh.OsshCertAuth
import Mathlib.Data.List.TakeWhile

/-! The scan of a keys file: which lines list a key, and what `fgets` makes of lines that are longer
than its buffer. -/

namespace WolfSsh.Ossh

open Words Fallible

/-- `Base64_Decode` skips a newline at the end of a text, and finds nothing in an empty one. -/
structure Base64Text (base64Decode : Bytes → Option Bytes) : Prop where
  newline : ∀ text, base64Decode (text ++ [10]) = base64Decode text
  empty : ∀ key, base64Decode [] = some key → key = []

/-- The first string in the key is the name of its type. -/
def Embeds (key name : Bytes) : Prop := ∃ idx, Yields (getStringRef key) 0 name idx

/-- The line lists the key: a type that is not for certificates, and the key in base64, with the same
type inside. -/
def LineLists (base64Decode : Bytes → Option Bytes) (line key : Bytes) : Prop :=
  ∃ type keyBase64 fields, words isSpace line = type :: keyBase64 :: fields ∧
    type.head? ≠ some 35 ∧ ¬ ascii "-cert-v01@openssh.com" <:+: type ∧
    base64Decode keyBase64 = some key ∧ Embeds key (authKeysTokenKeyType type)

/-- What stands between two newlines or the ends of the file. -/
def fileLines (file : Bytes) : List Bytes := file.splitOnP (· = 10)

/-- What `fgets` makes of one line: more than one piece of a line that does not fit its buffer. -/
def fragments (d : Daemon) (line : Bytes) : List Bytes :=
  fgetsPieces d.maxLineSz (d.maxLineSz - 1) [] line

/-- The scan finds the key in a piece that it takes for a line. -/
def Finds (base64Decode : Bytes → Option Bytes) (piece key : Bytes) : Prop :=
  ∃ line, keyLine piece = some line ∧ checkAuthKeysLine base64Decode line key = true

section Line

variable {base64Decode : Bytes → Option Bytes} {line key : Bytes}

theorem strtok_none_iff {s : Bytes} : strtok s = none ↔ words isSpace s = [] := by
  rw [strtok, ← words_dropWhile]
  cases hs : s.dropWhile isSpace with
  | nil => simp
  | cons b s' =>
    have hb : isSpace b = false := by
      have hhead := List.head?_dropWhile_not isSpace s
      rw [hs] at hhead
      simpa using hhead
    have hne : (b :: s').takeWhile (!isSpace ·) ≠ [] := by
      simp [hb]
    rw [words_takeWhile hne]
    simp

theorem strtok_words {s type rest : Bytes} (h : strtok s = some (type, rest)) :
    words isSpace s = type :: words isSpace rest := by
  rw [strtok] at h
  rw [← words_dropWhile]
  cases hs : s.dropWhile isSpace with
  | nil => simp [hs] at h
  | cons b s' =>
    rw [hs] at h
    simp only [Option.some.injEq, Prod.mk.injEq] at h
    obtain ⟨rfl, rfl⟩ := h
    have hb : isSpace b = false := by
      have hhead := List.head?_dropWhile_not isSpace s
      rw [hs] at hhead
      simpa using hhead
    have hne : (b :: s').takeWhile (!isSpace ·) ≠ [] := by
      simp [hb]
    rw [words_takeWhile hne]
    cases hrest : (b :: s').dropWhile (!isSpace ·) with
    | nil => rfl
    | cons c rest =>
      have hc : isSpace c = true := by
        have hhead := List.head?_dropWhile_not (!isSpace ·) (b :: s')
        rw [hrest] at hhead
        simpa using hhead
      rw [words_cons_sep hc]
      rfl

theorem embeds_iff {keyType : Bytes} :
    Embeds key keyType ↔ 4 ≤ key.length ∧ ato32 key = keyType.length ∧ ato32 key ≤ key.length - 4 ∧
      (key.drop 4).take keyType.length = keyType := by
  constructor
  · rintro ⟨idx, h⟩
    obtain ⟨hstr, -, hlen⟩ := getStringRef_ok h
    rw [List.drop_zero, Nat.zero_add, uint32Sz] at hstr hlen
    have hsz : ato32 key = keyType.length := by
      rw [hstr, List.length_take, List.length_drop]
      omega
    exact ⟨by omega, hsz, by omega, by rw [← hsz, ← hstr]⟩
  · rintro ⟨hlong, hsz, hfit, hstr⟩
    have hdrop : key.drop 0 = copyString keyType ++ key.drop (4 + ato32 key) := by
      have hwhole : 0 + uint32Sz + ato32 (key.drop 0) ≤ key.length := by
        rw [List.drop_zero, uint32Sz]
        omega
      have h := drop_string hwhole
      rwa [List.drop_zero, Nat.zero_add, uint32Sz, hsz, hstr, ← hsz] at h
    have hlt := Octets.value_lt (key.take 4)
    rw [List.length_take, Nat.min_eq_left hlong] at hlt
    have hrest : Rest key 0 (c32toa keyType.length ++ (keyType ++ key.drop (4 + ato32 key))) := by
      rw [Rest, hdrop, copyString, List.append_assoc]
    exact ⟨_, getStringRef_yields hrest (hsz ▸ hlt)⟩

theorem checkAuthKeysLine_iff :
    checkAuthKeysLine base64Decode line key = true ↔
      ∃ type keyBase64 fields, words isSpace line = type :: keyBase64 :: fields ∧
        ¬ ascii "-cert-v01@openssh.com" <:+: type ∧ base64Decode keyBase64 = some key ∧
        Embeds key (authKeysTokenKeyType type) := by
  rw [checkAuthKeysLine]
  cases htype : strtok line with
  | none =>
    rw [strtok_none_iff.mp htype]
    simp
  | some token =>
    obtain ⟨type, rest⟩ := token
    rw [strtok_words htype]
    dsimp only
    cases hkey : strtok rest with
    | none =>
      rw [strtok_none_iff.mp hkey]
      simp
    | some token' =>
      obtain ⟨keyBase64, rest'⟩ := token'
      rw [strtok_words hkey]
      dsimp only
      have hwords : ∀ {type' keyBase64' : Bytes} {fields : List Bytes},
          type :: keyBase64 :: words isSpace rest' = type' :: keyBase64' :: fields →
            type' = type ∧ keyBase64' = keyBase64 := by
        intro type' keyBase64' fields h
        simp only [List.cons.injEq] at h
        exact ⟨h.1.symm, h.2.1.symm⟩
      by_cases hcert : ascii "-cert-v01@openssh.com" <:+: type
      · rw [if_pos hcert]
        refine ⟨nofun, ?_⟩
        rintro ⟨type', keyBase64', fields, hw, hnot, -⟩
        obtain ⟨rfl, -⟩ := hwords hw
        exact absurd hcert hnot
      · rw [if_neg hcert]
        cases hdecode : base64Decode keyBase64 with
        | none =>
          refine ⟨nofun, ?_⟩
          rintro ⟨type', keyBase64', fields, hw, -, hdec, -⟩
          obtain ⟨-, rfl⟩ := hwords hw
          rw [hdecode] at hdec
          exact absurd hdec nofun
        | some keyCand =>
          dsimp only
          constructor
          · intro h
            split at h
            · simp at h
            · rename_i hshort
              split at h
              · simp at h
              · rename_i hsame
                rw [not_or, not_or, not_not, not_not] at hsame
                obtain ⟨hsz, hfit, hstr⟩ := hsame
                obtain rfl := of_decide_eq_true h
                exact ⟨type, keyBase64, _, rfl, hcert, hdecode,
                  embeds_iff.mpr ⟨Nat.not_lt.mp hshort, hsz, Nat.not_lt.mp hfit, hstr⟩⟩
          · rintro ⟨type', keyBase64', fields, hw, -, hdec, hembeds⟩
            obtain ⟨rfl, rfl⟩ := hwords hw
            obtain rfl := Option.some.inj (hdecode.symm.trans hdec)
            obtain ⟨hlong, hsz, hfit, hstr⟩ := embeds_iff.mp hembeds
            have hsame : ¬ (ato32 keyCand ≠ (authKeysTokenKeyType type').length ∨
                ato32 keyCand > keyCand.length - 4 ∨
                (keyCand.drop 4).take (authKeysTokenKeyType type').length ≠ authKeysTokenKeyType type') := by
              rw [not_or, not_or, not_not, not_not]
              exact ⟨hsz, Nat.not_lt.mpr hfit, hstr⟩
            rw [if_neg (Nat.not_lt.mpr hlong), if_neg hsame]
            exact decide_eq_true rfl

theorem head_of_words {s w : Bytes} {ws : List Bytes} (h : words isSpace (s.dropWhile isSpace) = w :: ws) :
    (s.dropWhile isSpace).head? = w.head? ∧ (s.dropWhile isSpace = w ∨ 1 < (s.dropWhile isSpace).length) := by
  cases hs : s.dropWhile isSpace with
  | nil => simp [hs] at h
  | cons b rest =>
    have hb : isSpace b = false := by
      have hhead := List.head?_dropWhile_not isSpace s
      rw [hs] at hhead
      simpa using hhead
    have hne : (b :: rest).takeWhile (!isSpace ·) ≠ [] := by
      simp [hb]
    rw [hs, words_takeWhile hne] at h
    obtain ⟨rfl, -⟩ := List.cons.inj h
    refine ⟨by simp [hb], ?_⟩
    cases rest with
    | nil =>
      left
      simp [hb]
    | cons c rest =>
      right
      simp

theorem cString_self {s : Bytes} (hnul : 0 ∉ s) : cString s = s := by
  rw [cString, List.takeWhile_eq_self_iff]
  exact fun c hc => decide_eq_true fun heq => hnul (heq ▸ hc)

theorem finds_iff {piece : Bytes} :
    Finds base64Decode piece key ↔ LineLists base64Decode (cString piece) key := by
  rw [Finds, keyLine]
  generalize cString piece = piece
  constructor
  · rintro ⟨line, hline, hcheck⟩
    split at hline
    · simp at hline
    · split at hline
      · simp at hline
      · rename_i hcomment
        obtain rfl := Option.some.inj hline
        obtain ⟨type, keyBase64, fields, hwords, hcert, hdec, hembeds⟩ := checkAuthKeysLine_iff.mp hcheck
        rw [(head_of_words hwords).1] at hcomment
        rw [words_dropWhile] at hwords
        exact ⟨type, keyBase64, fields, hwords, hcomment, hcert, hdec, hembeds⟩
  · rintro ⟨type, keyBase64, fields, hwords, hcomment, hcert, hdec, hembeds⟩
    rw [← words_dropWhile] at hwords
    obtain ⟨hhead, hlen⟩ := head_of_words hwords
    have hlong : ¬ (piece.dropWhile isSpace).length ≤ 1 := by
      rcases hlen with heq | hlen
      · -- one word alone has no second field
        rw [heq] at hwords
        have hall : ∀ x ∈ type, isSpace x = false :=
          not_sep_of_mem_words (hwords ▸ List.mem_cons_self)
        rw [words, List.splitOnP_eq_singleton hall] at hwords
        have hcount := List.length_filter_le (fun w : Bytes => !w.isEmpty) [type]
        rw [hwords] at hcount
        simp at hcount
      · omega
    refine ⟨piece.dropWhile isSpace, ?_, ?_⟩
    · rw [if_neg hlong, hhead, if_neg hcomment]
    · exact checkAuthKeysLine_iff.mpr ⟨type, keyBase64, fields, hwords, hcert, hdec, hembeds⟩

/-- The newline that `fgets` leaves at the end of a line does not matter. -/
theorem lineLists_newline (hdecode : Base64Text base64Decode) :
    LineLists base64Decode (line ++ [10]) key ↔ LineLists base64Decode line key := by
  have hsep : isSpace 10 = false := by decide
  have hempty : ∀ {type : Bytes}, base64Decode [10] = some key → ¬ Embeds key type := by
    intro type h hembeds
    have hnil : base64Decode ([] ++ [10]) = some key := h
    rw [hdecode.newline] at hnil
    obtain rfl := hdecode.empty key hnil
    exact absurd (embeds_iff.mp hembeds).1 (by decide)
  rw [LineLists, LineLists]
  rcases words_append_singleton hsep line with heq | ⟨init, w, hinit, heq⟩
  · rw [heq]
    rcases words isSpace line with _ | ⟨type, _ | ⟨keyBase64, fields⟩⟩
    · simp
    · -- the newline would be the second field
      refine ⟨?_, ?_⟩
      · rintro ⟨type', keyBase64', fields, hw, -, -, hdec, hembeds⟩
        obtain ⟨-, hw⟩ := List.cons.inj hw
        obtain ⟨rfl, -⟩ := List.cons.inj hw
        exact absurd hembeds (hempty hdec)
      · rintro ⟨_, _, _, hw, -⟩
        simp at hw
    · constructor
      · rintro ⟨type', keyBase64', fields', hw, hrest⟩
        simp only [List.cons_append, List.cons.injEq] at hw
        obtain ⟨rfl, rfl, -⟩ := hw
        exact ⟨type, keyBase64, fields, rfl, hrest⟩
      · rintro ⟨type', keyBase64', fields', hw, hrest⟩
        simp only [List.cons.injEq] at hw
        obtain ⟨rfl, rfl, -⟩ := hw
        exact ⟨type, keyBase64, fields ++ [[10]], rfl, hrest⟩
  · rw [heq, hinit]
    rcases init with _ | ⟨type, _ | ⟨keyBase64, fields⟩⟩
    · simp
    · constructor
      · rintro ⟨type', keyBase64', fields', hw, hcomment, hcert, hdec, hembeds⟩
        simp only [List.cons_append, List.nil_append, List.cons.injEq] at hw
        obtain ⟨rfl, rfl, -⟩ := hw
        rw [hdecode.newline] at hdec
        exact ⟨type, w, [], rfl, hcomment, hcert, hdec, hembeds⟩
      · rintro ⟨type', keyBase64', fields', hw, hcomment, hcert, hdec, hembeds⟩
        simp only [List.cons_append, List.nil_append, List.cons.injEq] at hw
        obtain ⟨rfl, rfl, -⟩ := hw
        rw [← hdecode.newline] at hdec
        exact ⟨type, w ++ [10], [], rfl, hcomment, hcert, hdec, hembeds⟩
    · constructor
      · rintro ⟨type', keyBase64', fields', hw, hrest⟩
        simp only [List.cons_append, List.cons.injEq] at hw
        obtain ⟨rfl, rfl, -⟩ := hw
        exact ⟨type, keyBase64, fields ++ [w], rfl, hrest⟩
      · rintro ⟨type', keyBase64', fields', hw, hrest⟩
        simp only [List.cons_append, List.cons.injEq] at hw
        obtain ⟨rfl, rfl, -⟩ := hw
        exact ⟨type, keyBase64, fields ++ [w ++ [10]], rfl, hrest⟩

theorem lineLists_cString_newline (hdecode : Base64Text base64Decode) :
    LineLists base64Decode (cString (line ++ [10])) key ↔ LineLists base64Decode (cString line) key := by
  by_cases hnul : 0 ∈ line
  · have hcut : cString (line ++ [10]) = cString line := by
      rw [cString, List.takeWhile_append, if_neg, cString]
      intro hall
      have hself := List.takeWhile_eq_self_iff.mp (List.takeWhile_prefix _ |>.eq_of_length hall) 0 hnul
      simp at hself
    rw [hcut]
  · rw [cString_self hnul, cString_self (by simpa using hnul), lineLists_newline hdecode]

theorem not_lineLists_nil : ¬ LineLists base64Decode [] key := by
  rintro ⟨_, _, _, hwords, -⟩
  simp at hwords

end Line

section File

variable {sz room : Nat} {piece : Bytes} {P : Bytes → Prop}

theorem mem_fgetsPieces {bs x : Bytes} (hx : x ∈ fgetsPieces sz room piece bs) {c : UInt8} (hc : c ∈ x) :
    c ∈ piece ++ bs := by
  induction bs generalizing room piece with
  | nil =>
    cases piece with
    | nil => simp [fgetsPieces] at hx
    | cons b piece =>
      rw [fgetsPieces, List.mem_singleton] at hx
      · rw [List.append_nil, ← hx]
        exact hc
      · exact List.cons_ne_nil b piece
  | cons b bs ih =>
    rw [fgetsPieces] at hx
    split at hx
    · rcases List.mem_cons.mp hx with rfl | hx
      · rw [List.append_cons]
        exact List.mem_append_left bs hc
      · exact List.mem_append_right piece (List.mem_cons_of_mem b (ih hx))
    · rw [List.append_cons]
      exact ih hx

theorem fgetsPieces_short (hnil : ¬ P []) {w : Bytes} (hnewline : 10 ∉ w) (hroom : w.length < room) :
    (∃ x ∈ fgetsPieces sz room piece w, P x) ↔ P (piece ++ w) := by
  induction w generalizing room piece with
  | nil =>
    cases piece with
    | nil => simp [fgetsPieces, hnil]
    | cons b piece => simp [fgetsPieces]
  | cons b w ih =>
    rw [List.length_cons] at hroom
    have hb : ¬ (b = 10 ∨ room ≤ 1) := by
      rintro (rfl | hsmall)
      · simp at hnewline
      · omega
    have hless : w.length < room - 1 := by omega
    rw [fgetsPieces, if_neg hb, ih (fun h => hnewline (List.mem_cons_of_mem b h)) hless,
      List.append_assoc, List.singleton_append]

/-- After a newline `fgets` is at the start of a line again. Before it, it makes of the line what it
makes of the line alone, up to the newline. -/
theorem fgetsPieces_newline (hnil : ¬ P []) (hP : ∀ x, P (x ++ [10]) ↔ P x) {w : Bytes}
    (hnewline : 10 ∉ w) (rest : Bytes) :
    (∃ x ∈ fgetsPieces sz room piece (w ++ 10 :: rest), P x) ↔
      (∃ x ∈ fgetsPieces sz room piece w, P x) ∨ ∃ x ∈ fgetsPieces sz (sz - 1) [] rest, P x := by
  induction w generalizing room piece with
  | nil =>
    have hend : fgetsPieces sz room piece (10 :: rest) =
        (piece ++ [10]) :: fgetsPieces sz (sz - 1) [] rest := by
      rw [fgetsPieces, if_pos (.inl rfl)]
    rw [List.nil_append, hend, List.exists_mem_cons_iff, hP]
    cases piece with
    | nil => simp [fgetsPieces, hnil]
    | cons b piece => simp [fgetsPieces]
  | cons b w ih =>
    have hw : 10 ∉ w := fun h => hnewline (List.mem_cons_of_mem b h)
    rw [List.cons_append, fgetsPieces, fgetsPieces]
    split
    · rw [List.exists_mem_cons_iff, List.exists_mem_cons_iff, ih hw, or_assoc]
    · exact ih hw

theorem exists_piece_iff (hnil : ¬ P []) (hP : ∀ x, P (x ++ [10]) ↔ P x) (file : Bytes) :
    (∃ x ∈ fgetsPieces sz (sz - 1) [] file, P x) ↔
      ∃ w ∈ fileLines file, ∃ x ∈ fgetsPieces sz (sz - 1) [] w, P x := by
  induction hn : file.length using Nat.strongRecOn generalizing file with
  | ind n ih =>
    have happ := List.takeWhile_append_dropWhile (p := (· ≠ (10 : UInt8))) (l := file)
    have hw : 10 ∉ file.takeWhile (· ≠ 10) := by
      intro hmem
      have := List.all_eq_true.mp (List.all_takeWhile (p := (· ≠ (10 : UInt8))) (l := file)) 10 hmem
      simp at this
    have hsep : ∀ c ∈ file.takeWhile (· ≠ 10), decide (c = (10 : UInt8)) = false := by
      intro c hc
      exact decide_eq_false fun heq => hw (heq ▸ hc)
    cases hrest : file.dropWhile (· ≠ 10) with
    | nil =>
      rw [hrest, List.append_nil] at happ
      rw [happ] at hsep
      rw [fileLines, List.splitOnP_eq_singleton hsep]
      simp
    | cons b rest =>
      have hb : b = 10 := by
        have hhead := List.head?_dropWhile_not (· ≠ (10 : UInt8)) file
        rw [hrest] at hhead
        simpa using hhead
      subst hb
      rw [hrest] at happ
      have hlen : rest.length < n := by
        have := congrArg List.length happ
        rw [List.length_append, List.length_cons] at this
        omega
      rw [← happ, fgetsPieces_newline hnil hP hw, fileLines,
        List.splitOnP_append_cons_of_forall_mem hsep 10 (decide_eq_true rfl), List.exists_mem_cons_iff]
      exact or_congr_right (ih rest.length hlen rest rfl)

end File

theorem mem_of_mem_fileLines {file line : Bytes} (hline : line ∈ fileLines file) {c : UInt8}
    (hc : c ∈ line) : c ∈ file := by
  induction file generalizing line with
  | nil =>
    rw [fileLines, List.splitOnP_nil, List.mem_singleton] at hline
    rw [hline] at hc
    cases hc
  | cons b file ih =>
    rw [fileLines, List.splitOnP_cons_eq_if_modifyHead] at hline
    split at hline
    · rcases List.mem_cons.mp hline with rfl | hline
      · cases hc
      · exact List.mem_cons_of_mem b (ih hline hc)
    · have hne := List.splitOnP_ne_nil (· = (10 : UInt8)) file
      cases hsplit : List.splitOnP (· = (10 : UInt8)) file with
      | nil => exact absurd hsplit hne
      | cons w ws =>
        rw [hsplit, List.modifyHead_cons] at hline
        rcases List.mem_cons.mp hline with rfl | hline
        · rcases List.mem_cons.mp hc with rfl | hc
          · exact List.mem_cons_self
          · exact List.mem_cons_of_mem b (ih (by rw [fileLines, hsplit]; exact List.mem_cons_self) hc)
        · exact List.mem_cons_of_mem b
            (ih (by rw [fileLines, hsplit]; exact List.mem_cons_of_mem w hline) hc)

section Scan

variable {d : Daemon} {file key : Bytes}

theorem searchKeysFile_cString_iff (hdecode : Base64Text d.base64Decode) :
    searchKeysFile d (some file) key = .success ↔
      ∃ line ∈ fileLines file, ∃ x ∈ fragments d line, LineLists d.base64Decode (cString x) key := by
  have hpieces :
      (∃ line ∈ fileLines file, ∃ x ∈ fragments d line, LineLists d.base64Decode (cString x) key) ↔
      ∃ x ∈ fgetsPieces d.maxLineSz (d.maxLineSz - 1) [] file,
        LineLists d.base64Decode (cString x) key :=
    (exists_piece_iff (P := fun x => LineLists d.base64Decode (cString x) key) not_lineLists_nil
      (fun x => lineLists_cString_newline hdecode) file).symm
  have hfinds : (∃ x ∈ fgetsPieces d.maxLineSz (d.maxLineSz - 1) [] file,
        LineLists d.base64Decode (cString x) key) ↔
      ∃ x ∈ fgetsPieces d.maxLineSz (d.maxLineSz - 1) [] file, Finds d.base64Decode x key :=
    exists_congr fun x => and_congr_right fun _ => finds_iff.symm
  have hany : (∃ x ∈ fgetsPieces d.maxLineSz (d.maxLineSz - 1) [] file, Finds d.base64Decode x key) ↔
      (((fgetsPieces d.maxLineSz (d.maxLineSz - 1) [] file).filterMap keyLine).any fun line =>
        checkAuthKeysLine d.base64Decode line key) = true := by
    rw [List.any_eq_true]
    constructor
    · rintro ⟨x, hx, line, hline, hcheck⟩
      exact ⟨line, List.mem_filterMap.mpr ⟨x, hx, hline⟩, hcheck⟩
    · rintro ⟨line, hmem, hcheck⟩
      obtain ⟨x, hx, hline⟩ := List.mem_filterMap.mp hmem
      exact ⟨x, hx, line, hline, hcheck⟩
  rw [searchKeysFile]
  by_cases hkey : key = []
  · subst hkey
    refine ⟨nofun, ?_⟩
    rintro ⟨line, -, x, -, type, keyBase64, fields, -, -, -, -, hembeds⟩
    exact absurd (embeds_iff.mp hembeds).1 (by decide)
  · rw [if_neg hkey, hpieces, hfinds, hany]
    dsimp only
    split
    · rename_i h
      exact iff_of_true rfl h
    · rename_i h
      exact iff_of_false nofun h

theorem searchKeysFile_iff (hdecode : Base64Text d.base64Decode) (hnul : 0 ∉ file) :
    searchKeysFile d (some file) key = .success ↔
      ∃ line ∈ fileLines file, ∃ x ∈ fragments d line, LineLists d.base64Decode x key := by
  rw [searchKeysFile_cString_iff hdecode]
  refine exists_congr fun line => and_congr_right fun hline => ?_
  refine exists_congr fun x => and_congr_right fun hx => ?_
  have hx0 : 0 ∉ x := by
    intro hmem
    have hinLine : 0 ∈ line := by simpa using mem_fgetsPieces hx hmem
    exact hnul (mem_of_mem_fileLines hline hinLine)
  rw [cString_self hx0]

theorem exists_fragment_short {P : Bytes → Prop} (hnil : ¬ P []) {line : Bytes}
    (hline : line ∈ fileLines file) (hshort : line.length < d.maxLineSz - 1) :
    (∃ x ∈ fragments d line, P x) ↔ P line := by
  have hnewline : 10 ∉ line := by
    intro hmem
    have := not_sep_of_mem_splitOnP hline 10 hmem
    simp at this
  rw [fragments, fgetsPieces_short hnil hnewline hshort, List.nil_append]

/-- The scan is line-exact unless a fragment of a line that does not fit the buffer lists the key and
no whole line does. -/
theorem keys_file_line_exact (hdecode : Base64Text d.base64Decode) (hnul : 0 ∉ file) :
    ((searchKeysFile d (some file) key = .success →
        ∃ line ∈ fileLines file, LineLists d.base64Decode line key) ∧
      ((∃ line ∈ fileLines file, line.length < d.maxLineSz - 1 ∧ LineLists d.base64Decode line key) →
        searchKeysFile d (some file) key = .success)) ↔
      (∀ line ∈ fileLines file, d.maxLineSz - 1 ≤ line.length →
        ∀ x ∈ fragments d line, ¬ LineLists d.base64Decode x key) ∨
      ∃ line ∈ fileLines file, LineLists d.base64Decode line key := by
  rw [searchKeysFile_iff hdecode hnul]
  constructor
  · rintro ⟨hsound, -⟩
    by_cases hlists : ∃ line ∈ fileLines file, LineLists d.base64Decode line key
    · exact .inr hlists
    · left
      intro line hline _ x hx hlistsx
      exact hlists (hsound ⟨line, hline, x, hx, hlistsx⟩)
  · intro hcond
    constructor
    · rintro ⟨line, hline, x, hx, hlists⟩
      rcases hcond with hnone | hwhole
      · by_cases hlong : d.maxLineSz - 1 ≤ line.length
        · exact absurd hlists (hnone line hline hlong x hx)
        · exact ⟨line, hline, (exists_fragment_short (P := fun x => LineLists d.base64Decode x key)
            not_lineLists_nil hline (Nat.not_le.mp hlong)).mp ⟨x, hx, hlists⟩⟩
      · exact hwhole
    · rintro ⟨line, hline, hshort, hlists⟩
      obtain ⟨x, hx, hlistsx⟩ := (exists_fragment_short (P := fun x => LineLists d.base64Decode x key) not_lineLists_nil hline
        hshort).mpr hlists
      exact ⟨line, hline, x, hx, hlistsx⟩

end Scan

def tinyKeyText : Bytes := ascii "AAAAC3NzaC1lZDI1NTE5AAAAAQc="

def tinyDaemon : Daemon :=
  { bobDaemon with
    base64Decode := fun text =>
      let text := text.filter (· ≠ 10)
      if text = [] then some []
      else if text = tinyKeyText then some tinyCaKey
      else none }

theorem tinyDaemon_base64 : Base64Text tinyDaemon.base64Decode := by
  constructor
  · intro text
    have hfilter : (text ++ [10]).filter (· ≠ 10) = text.filter (· ≠ 10) := by simp
    simp only [tinyDaemon]
    rw [hfilter]
  · intro key h
    exact (Option.some.inj h).symm

/-- A comment that `fgets` cuts in front of a key line. -/
def longComment : Bytes :=
  35 :: List.replicate 898 120 ++ (ascii "ssh-ed25519 " ++ tinyKeyText ++ [10])

/-- The end of a long comment authorises a key. -/
theorem long_comment_authorises :
    ¬ ∀ (d : Daemon) (file key : Bytes), Base64Text d.base64Decode → 0 ∉ file →
      searchKeysFile d (some file) key = .success →
      ∃ line ∈ fileLines file, LineLists d.base64Decode line key := by
  intro h
  have hlines : fileLines longComment = [longComment.dropLast, []] := by decide +kernel
  obtain ⟨line, hline, type, keyBase64, fields, hwords, hcomment, -⟩ :=
    h tinyDaemon longComment tinyCaKey tinyDaemon_base64 (by decide +kernel) (by decide +kernel)
  rw [hlines] at hline
  have htype : (words isSpace longComment.dropLast).head?.bind List.head? = some 35 := by decide +kernel
  rcases List.mem_pair.mp hline with rfl | rfl
  · rw [hwords] at htype
    exact hcomment htype
  · simp at hwords

/-- A file of a comment, a key line and a comment that does not fit the buffer. -/
def tinyKeysFile : Bytes :=
  ascii "# trusted\n" ++ tinyCaLine ++ (35 :: List.replicate 1000 120 ++ [10])

theorem tinyKeysFile_fragments {line x : Bytes} (hline : line ∈ fileLines tinyKeysFile)
    (hlong : tinyDaemon.maxLineSz - 1 ≤ line.length) (hx : x ∈ fragments tinyDaemon line) :
    cString x = x ∧ (words isSpace x).length = 1 := by
  have hlines : fileLines tinyKeysFile =
      [ascii "# trusted", tinyCaLine.dropLast, 35 :: List.replicate 1000 120, []] := by decide +kernel
  have hfragments : (fragments tinyDaemon (35 :: List.replicate 1000 120)).all
      (fun x => cString x == x && (words isSpace x).length == 1) = true := by decide +kernel
  rw [hlines] at hline
  simp only [List.mem_cons, List.not_mem_nil, or_false] at hline
  rcases hline with rfl | rfl | rfl | rfl
  · exact absurd hlong (by decide +kernel)
  · exact absurd hlong (by decide +kernel)
  · simpa using List.all_eq_true.mp hfragments x hx
  · exact absurd hlong (by decide +kernel)

theorem not_lineLists_of_word {base64Decode : Bytes → Option Bytes} {x key : Bytes}
    (h : (words isSpace x).length = 1) : ¬ LineLists base64Decode x key := by
  rintro ⟨type, keyBase64, fields, hwords, -⟩
  rw [hwords] at h
  simp at h

theorem keys_file_line_exact_tiny :
    ∃ line ∈ fileLines tinyKeysFile, LineLists tinyDaemon.base64Decode line tinyCaKey :=
  ((keys_file_line_exact tinyDaemon_base64 (by decide +kernel)).mpr (.inl fun _ hline hlong _ hx =>
    not_lineLists_of_word (tinyKeysFile_fragments hline hlong hx).2)).1 (by decide +kernel)

end WolfSsh.Ossh
