import WolfSsh.Lib.BitStrings
import WolfSsh.Lib.Words
import WolfSsh.OsshCertAuth
import Mathlib.Data.List.TakeWhile

/-! The list of addresses that a certificate is good for: what the pieces between its commas have to
be, and what the daemon reads of them. -/

namespace WolfSsh.Ossh

open BitStrings

/-- `inet_pton` takes the texts of addresses: decimal octets with dots, and hexadecimal groups with
colons. -/
structure InetPton.Textual (inet : InetPton) : Prop where
  v4 : ∀ {text addr}, inet.v4 text = some addr →
    addr.length = 4 ∧ 46 ∈ text ∧ ∀ c ∈ text, c = 46 ∨ 48 ≤ c ∧ c ≤ 57
  v6 : ∀ {text addr}, inet.v6 text = some addr →
    addr.length = 16 ∧ 58 ∈ text ∧
      ∀ c ∈ text, c = 46 ∨ 48 ≤ c ∧ c ≤ 58 ∨ 65 ≤ c ∧ c ≤ 70 ∨ 97 ≤ c ∧ c ≤ 102

def InetPton.Address (inet : InetPton) (text addr : Bytes) : Prop :=
  inet.v4 text = some addr ∨ inet.v6 text = some addr

/-- The number that digits stand for, behind the digits of `n`. -/
def decimal (n : Nat) (digits : Bytes) : Nat := digits.foldl (fun n c => n * 10 + (c.toNat - 48)) n

/-- A piece of the list that is well formed: an address and how many of its leading bits count. -/
def Cidr (inet : InetPton) (piece addr : Bytes) (bits : Nat) : Prop :=
  piece.length ≤ cidrEntrySz - 1 ∧ 0 ∉ piece ∧ ∃ text, inet.Address text addr ∧
    ((piece = text ∧ bits = addr.length * 8) ∨
      ∃ digits, digits ≠ [] ∧ (∀ c ∈ digits, 48 ≤ c ∧ c ≤ 57) ∧ piece = text ++ 47 :: digits ∧
        bits = decimal 0 digits ∧ bits ≤ addr.length * 8)

/-- The rule for the pieces of a list: all are well formed, and one agrees with the peer. -/
def Allowed (inet : InetPton) (peer : Bytes) (pieces : List Bytes) : Prop :=
  (∀ piece ∈ pieces, ∃ addr bits, Cidr inet piece addr bits) ∧
    ∃ piece ∈ pieces, ∃ addr bits, Cidr inet piece addr bits ∧ addr.length = peer.length ∧
      ∀ i < bits, bit peer i = bit addr i

def pieces (list : Bytes) : List Bytes := list.splitOnP (· = 44)

/-- A piece that fits the daemon's buffer is read up to a NUL. -/
def readPiece (piece : Bytes) : Bytes := if piece.length < cidrEntrySz then cString piece else piece

/-- The pieces as the daemon reads them: none behind a comma at the end. -/
def readPieces (list : Bytes) : List Bytes :=
  ((if list.getLast? = some 44 then (pieces list).dropLast else pieces list)).map readPiece

section PrefixMatch

theorem osshPrefixMatch_iff {a b : Bytes} {bits : Nat} (hlen : b.length = a.length)
    (hbits : bits ≤ b.length * 8) :
    osshPrefixMatch a b bits b.length = true ↔ ∀ i < bits, bit a i = bit b i := by
  have hdiv : 8 * (bits / 8) + bits % 8 = bits := Nat.div_add_mod bits 8
  have hfull : a.take (bits / 8) = b.take (bits / 8) ↔ ∀ i < 8 * (bits / 8), bit a i = bit b i :=
    take_eq_take_iff (by omega) (by omega)
  have hmod : bits % 8 < 8 := Nat.mod_lt bits (by decide)
  rw [osshPrefixMatch]
  dsimp only
  rw [if_neg (Nat.not_lt.mpr hbits)]
  by_cases htake : a.take (bits / 8) = b.take (bits / 8)
  · rw [if_neg (not_not.mpr htake)]
    have hbefore := hfull.mp htake
    by_cases hrem : bits % 8 = 0
    · rw [if_neg (not_not.mpr hrem)]
      refine ⟨fun _ i hi => hbefore i (by omega), fun _ => rfl⟩
    · rw [if_pos hrem, beq_iff_eq]
      change _ &&& highMask (bits % 8) = _ &&& highMask (bits % 8) ↔ _
      rw [and_highMask_eq_iff hmod (Nat.pos_of_ne_zero hrem)]
      constructor
      · intro hmask i hi
        by_cases hin : i < 8 * (bits / 8)
        · exact hbefore i hin
        · -- a bit of the last octet, which only counts in part
          have hi' : i = 8 * (bits / 8) + (i - 8 * (bits / 8)) := by omega
          rw [hi', bit_append_octet (by omega), bit_append_octet (by omega)]
          exact hmask _ (by omega)
      · intro h j hj
        have hbit := h (8 * (bits / 8) + j) (by omega)
        rwa [bit_append_octet (by omega), bit_append_octet (by omega)] at hbit
  · rw [if_pos htake]
    refine ⟨nofun, fun h => absurd (hfull.mpr fun i hi => h i (by omega)) htake⟩

end PrefixMatch

section Entry

variable {inet : InetPton} {peer entry : Bytes}

theorem decimal_le (n : Nat) (digits : Bytes) : n ≤ decimal n digits := by
  induction digits generalizing n with
  | nil => exact Nat.le_refl n
  | cons c cs ih => exact Nat.le_trans (by omega) (ih (n * 10 + (c.toNat - 48)))

theorem cidrBits_iff {n m : Nat} {digits : Bytes} (hn : n ≤ 128) :
    cidrBits n digits = some m ↔
      (∀ c ∈ digits, 48 ≤ c ∧ c ≤ 57) ∧ m = decimal n digits ∧ decimal n digits ≤ 128 := by
  induction digits generalizing n with
  | nil =>
    rw [cidrBits, Option.some.injEq]
    exact ⟨fun h => ⟨nofun, h.symm, hn⟩, fun h => h.2.1.symm⟩
  | cons c cs ih =>
    rw [cidrBits, List.forall_mem_cons]
    by_cases hc : 48 ≤ c ∧ c ≤ 57
    · rw [if_pos hc]
      dsimp only
      by_cases hbig : n * 10 + (c.toNat - 48) > 128
      · rw [if_pos hbig]
        have hle := decimal_le (n * 10 + (c.toNat - 48)) cs
        have hdec : decimal n (c :: cs) = decimal (n * 10 + (c.toNat - 48)) cs := rfl
        refine ⟨nofun, fun h => ?_⟩
        omega
      · rw [if_neg hbig, ih (Nat.not_lt.mp hbig)]
        exact ⟨fun h => ⟨⟨hc, h.1⟩, h.2⟩, fun h => ⟨h.1.2, h.2⟩⟩
    · rw [if_neg hc]
      exact ⟨nofun, fun h => absurd h.1.1 hc⟩

theorem InetPton.Textual.address (htext : inet.Textual) {text addr : Bytes}
    (h : inet.Address text addr) :
    (inet.v4 text).or (inet.v6 text) = some addr ∧ addr.length * 8 ≤ 128 ∧ 47 ∉ text ∧ text ≠ [] ∧
      text.head? ≠ some 33 := by
  have hchars : ∀ c ∈ text, 46 ≤ c ∧ c ≠ 47 := by
    intro c hc
    rcases h with h | h
    · rcases (htext.v4 h).2.2 c hc with rfl | ⟨hlo, -⟩
      · decide
      · exact ⟨UInt8.le_trans (by decide) hlo, fun heq => absurd hlo (heq ▸ by decide)⟩
    · rcases (htext.v6 h).2.2 c hc with rfl | ⟨hlo, -⟩ | ⟨hlo, -⟩ | ⟨hlo, -⟩
      · decide
      all_goals exact ⟨UInt8.le_trans (by decide) hlo, fun heq => absurd hlo (heq ▸ by decide)⟩
  refine ⟨?_, ?_, fun hmem => (hchars 47 hmem).2 rfl, ?_, ?_⟩
  · rcases h with h | h
    · rw [h]
      rfl
    · cases hv4 : inet.v4 text with
      | none => rw [h]; rfl
      | some a =>
        -- an IPv4 text has no colon
        have hcolon := (htext.v4 hv4).2.2 58 (htext.v6 h).2.1
        exact absurd hcolon (by decide)
  · rcases h with h | h
    · have := (htext.v4 h).1
      omega
    · have := (htext.v6 h).1
      omega
  · rintro rfl
    rcases h with h | h
    · exact absurd (htext.v4 h).2.1 (List.not_mem_nil)
    · exact absurd (htext.v6 h).2.1 (List.not_mem_nil)
  · intro hhead
    have hmem : 33 ∈ text := List.mem_of_mem_head? hhead
    exact absurd (hchars 33 hmem).1 (by decide)

theorem readPiece_short (h : entry.length < cidrEntrySz) : readPiece entry = cString entry := if_pos h

theorem cidrEntryAllows_cidr (peer : Bytes) (htext : inet.Textual) {addr : Bytes} {bits : Nat}
    (h : Cidr inet (readPiece entry) addr bits) :
    cidrEntryAllows inet peer entry =
        some (decide (addr.length = peer.length) && osshPrefixMatch peer addr bits addr.length) ∧
      bits ≤ addr.length * 8 := by
  obtain ⟨hlen, -, text, haddr, hshape⟩ := h
  obtain ⟨hinet, hwidth, hslash, hne, hbang⟩ := htext.address haddr
  have hshort : entry.length < cidrEntrySz := by
    by_contra hlong
    rw [readPiece, if_neg hlong] at hlen
    exact hlong (Nat.lt_of_le_of_lt hlen (by decide))
  rw [readPiece_short hshort] at hshape
  -- what the slash splits the piece into
  have hsplit : cidrPrefix (cString entry) = some (if cString entry = text then none else some bits) ∧
      (cString entry).takeWhile (· ≠ 47) = text ∧ bits ≤ addr.length * 8 ∧
      (cString entry = text → bits = addr.length * 8) ∧ cString entry ≠ [] ∧
      (cString entry).head? ≠ some 33 := by
    have hall : ∀ c ∈ text, decide (c ≠ 47) = true := by
      intro c hc
      exact decide_eq_true fun heq => hslash (heq ▸ hc)
    rcases hshape with ⟨hp, hbits⟩ | ⟨digits, hdigits, hdec, hp, hbits, hle⟩
    · rw [hp]
      refine ⟨?_, List.takeWhile_eq_self_iff.mpr hall, Nat.le_of_eq hbits, fun _ => hbits, hne, hbang⟩
      rw [cidrPrefix, List.dropWhile_eq_nil_iff.mpr hall, if_pos rfl]
    · have hlonger : text ++ 47 :: digits ≠ text := by
        intro heq
        have := congrArg List.length heq
        rw [List.length_append, List.length_cons] at this
        omega
      have hdrop : (text ++ 47 :: digits).dropWhile (· ≠ 47) = 47 :: digits := by
        rw [List.dropWhile_append_of_pos hall]
        rfl
      have htake : (text ++ 47 :: digits).takeWhile (· ≠ 47) = text := by
        rw [List.takeWhile_append_of_pos hall]
        simp
      have hbits' : cidrBits 0 digits = some bits := by
        rw [cidrBits_iff (Nat.zero_le _)]
        exact ⟨hdec, hbits, by omega⟩
      rw [hp]
      refine ⟨?_, htake, hle, fun heq => absurd heq hlonger, List.append_ne_nil_of_left_ne_nil hne _, ?_⟩
      · rw [cidrPrefix, hdrop, if_neg hlonger]
        cases digits with
        | nil => exact absurd rfl hdigits
        | cons d ds =>
          dsimp only
          rw [hbits']
          rfl
      · cases text with
        | nil => exact absurd rfl hne
        | cons c cs => exact hbang
  obtain ⟨hlead, htake, hle, hfull, hne', hbang'⟩ := hsplit
  refine ⟨?_, hle⟩
  have hgetD : (if cString entry = text then none else some bits).getD (addr.length * 8) = bits := by
    by_cases heq : cString entry = text
    · rw [if_pos heq, Option.getD_none, hfull heq]
    · rw [if_neg heq, Option.getD_some]
  rw [cidrEntryAllows, if_neg (Nat.not_le.mpr hshort)]
  dsimp only
  rw [if_neg (not_or.mpr ⟨hne', hbang'⟩), hlead]
  dsimp only
  rw [htake, hinet]
  dsimp only
  rw [hgetD, if_neg (Nat.not_lt.mpr hle)]
  by_cases hfam : addr.length = peer.length
  · rw [if_neg (not_not.mpr hfam), decide_eq_true hfam, Bool.true_and]
  · rw [if_pos hfam, decide_eq_false hfam, Bool.false_and]

/-- A piece that the daemon does not find malformed is well formed as it reads it. -/
theorem cidr_of_cidrEntryAllows {ok : Bool} (h : cidrEntryAllows inet peer entry = some ok) :
    ∃ addr bits, Cidr inet (readPiece entry) addr bits := by
  rw [cidrEntryAllows] at h
  split at h
  · simp at h
  rename_i hlong
  have hshort : entry.length < cidrEntrySz := Nat.not_le.mp hlong
  dsimp only at h
  split at h
  · simp at h
  cases hbits : cidrPrefix (cString entry) with
  | none => simp [hbits] at h
  | some bits =>
    rw [hbits] at h
    dsimp only at h
    cases haddr : (inet.v4 ((cString entry).takeWhile (· ≠ 47))).or
        (inet.v6 ((cString entry).takeWhile (· ≠ 47))) with
    | none =>
      rw [haddr] at h
      simp at h
    | some addr =>
      rw [haddr] at h
      dsimp only at h
      split at h
      · simp at h
      rename_i hwide
      have hle : bits.getD (addr.length * 8) ≤ addr.length * 8 := Nat.not_lt.mp hwide
      have haddress : inet.Address ((cString entry).takeWhile (· ≠ 47)) addr := by
        rcases Option.or_eq_some_iff.mp haddr with h4 | ⟨-, h6⟩
        · exact .inl h4
        · exact .inr h6
      have hlen : (cString entry).length ≤ cidrEntrySz - 1 := by
        have htake : (cString entry).length ≤ entry.length := by
          rw [cString]
          exact (List.takeWhile_sublist _).length_le
        omega
      have hnul : 0 ∉ cString entry := by
        intro hmem
        have hall := List.all_eq_true.mp (List.all_takeWhile (p := (· ≠ (0 : UInt8))) (l := entry)) 0 hmem
        simp at hall
      refine ⟨addr, bits.getD (addr.length * 8), ?_⟩
      rw [readPiece_short hshort]
      refine ⟨hlen, hnul, (cString entry).takeWhile (· ≠ 47), haddress, ?_⟩
      have happ := List.takeWhile_append_dropWhile (p := (· ≠ (47 : UInt8))) (l := cString entry)
      rw [cidrPrefix] at hbits
      cases hdrop : (cString entry).dropWhile (· ≠ 47) with
      | nil =>
        rw [hdrop] at hbits happ
        obtain rfl := Option.some.inj hbits
        rw [List.append_nil] at happ
        exact .inl ⟨happ.symm, rfl⟩
      | cons c digits =>
        have hc : c = 47 := by
          have hhead := List.head?_dropWhile_not (· ≠ (47 : UInt8)) (cString entry)
          rw [hdrop] at hhead
          simpa using hhead
        subst hc
        rw [hdrop] at hbits happ
        cases digits with
        | nil => simp at hbits
        | cons d ds =>
          obtain ⟨n, hn, rfl⟩ := Option.map_eq_some_iff.mp hbits
          obtain ⟨hdigits, rfl, -⟩ := (cidrBits_iff (Nat.zero_le _)).mp hn
          exact .inr ⟨d :: ds, List.cons_ne_nil d ds, hdigits, happ.symm, rfl, hle⟩

theorem not_cidr_nil (htext : inet.Textual) (addr : Bytes) (bits : Nat) : ¬ Cidr inet [] addr bits := by
  rintro ⟨-, -, text, haddr, ⟨hp, -⟩ | ⟨digits, -, -, hp, -⟩⟩
  · exact (htext.address haddr).2.2.2.1 hp.symm
  · simp at hp

end Entry

section List

variable {inet : InetPton} {peer : Bytes}

theorem pieces_cons_comma (bs : Bytes) : pieces (44 :: bs) = [] :: pieces bs := by
  rw [pieces, List.splitOnP_cons_eq_if_modifyHead, if_pos (decide_eq_true rfl), pieces]

theorem pieces_cons {b : UInt8} (hb : b ≠ 44) (bs : Bytes) :
    pieces (b :: bs) = (pieces bs).modifyHead (List.cons b) := by
  rw [pieces, List.splitOnP_cons_eq_if_modifyHead, if_neg (by simpa using hb), pieces]

theorem modifyHead_nil_append (l : List Bytes) : l.modifyHead ([] ++ ·) = l := by
  cases l <;> rfl

theorem cidrEntries_eq (entry list : Bytes) :
    cidrEntries entry list = if list.getLast? = some 44
      then ((pieces list).modifyHead (entry ++ ·)).dropLast
      else (pieces list).modifyHead (entry ++ ·) := by
  induction list generalizing entry with
  | nil => simp [cidrEntries, pieces]
  | cons b bs ih =>
    rw [cidrEntries]
    by_cases hb : b = 44
    · subst hb
      rw [if_pos rfl, pieces_cons_comma, List.modifyHead_cons, List.append_nil]
      by_cases hbs : bs = []
      · subst hbs
        rfl
      · have hlast : (44 :: bs).getLast? = bs.getLast? := List.getLast?_cons_of_ne_nil hbs
        have hne : pieces bs ≠ [] := List.splitOnP_ne_nil _ bs
        rw [if_neg hbs, ih, hlast, modifyHead_nil_append, List.dropLast_cons_of_ne_nil hne]
        split <;> rfl
    · have hlast : (b :: bs).getLast? = some 44 ↔ bs.getLast? = some 44 := by
        cases bs with
        | nil => simpa using hb
        | cons c cs => rw [List.getLast?_cons_cons]
      have hhead : ((pieces bs).modifyHead (List.cons b)).modifyHead (entry ++ ·)
          = (pieces bs).modifyHead ((entry ++ [b]) ++ ·) := by
        rw [List.modifyHead_modifyHead]
        congr 1
        funext piece
        simp
      rw [if_neg hb, ih, pieces_cons hb, hhead]
      exact if_congr hlast.symm rfl rfl

theorem osshSourceAddrMatch_iff (htext : inet.Textual) (list peerIp : Bytes) :
    osshSourceAddrMatch inet list peerIp = true ↔
      ∃ peer, peerAddr inet peerIp = some peer ∧ Allowed inet peer (readPieces list) := by
  rw [osshSourceAddrMatch]
  cases hpeer : peerAddr inet peerIp with
  | none => simp
  | some peer =>
    have hexists : (∃ peer', some peer = some peer' ∧ Allowed inet peer' (readPieces list)) ↔
        Allowed inet peer (readPieces list) := by
      simp
    rw [hexists]
    by_cases hnil : list = []
    · subst hnil
      refine ⟨nofun, fun h => ?_⟩
      obtain ⟨addr, bits, hcidr⟩ := h.1 [] (by decide)
      exact absurd hcidr (not_cidr_nil htext addr bits)
    · have hentries : readPieces list = (cidrEntries [] list).map readPiece := by
        rw [cidrEntries_eq, readPieces, modifyHead_nil_append]
      dsimp only
      rw [if_neg hnil, Bool.and_eq_true, List.all_map, List.any_map, List.all_eq_true,
        List.any_eq_true, hentries, Allowed, List.forall_mem_map]
      refine and_congr (forall₂_congr fun entry _ => ?_) ?_
      · constructor
        · intro hsome
          obtain ⟨ok, hok⟩ := Option.isSome_iff_exists.mp hsome
          exact cidr_of_cidrEntryAllows hok
        · rintro ⟨addr, bits, hcidr⟩
          rw [Function.comp_apply, (cidrEntryAllows_cidr peer htext hcidr).1]
          rfl
      · constructor
        · rintro ⟨entry, hmem, hok⟩
          have hok' : cidrEntryAllows inet peer entry = some true := by simpa using hok
          obtain ⟨addr, bits, hcidr⟩ := cidr_of_cidrEntryAllows hok'
          obtain ⟨heq, hle⟩ := cidrEntryAllows_cidr peer htext hcidr
          rw [heq, Option.some.injEq, Bool.and_eq_true, decide_eq_true_iff] at hok'
          obtain ⟨hfam, hmatch⟩ := hok'
          exact ⟨readPiece entry, List.mem_map_of_mem hmem, addr, bits, hcidr, hfam,
            (osshPrefixMatch_iff hfam hle).mp hmatch⟩
        · rintro ⟨piece, hmem, addr, bits, hcidr, hfam, hagree⟩
          obtain ⟨entry, hentry, rfl⟩ := List.mem_map.mp hmem
          obtain ⟨heq, hle⟩ := cidrEntryAllows_cidr peer htext hcidr
          refine ⟨entry, hentry, ?_⟩
          have hmatch := (osshPrefixMatch_iff hfam hle).mpr hagree
          rw [Function.comp_apply, heq, hmatch, decide_eq_true hfam]
          rfl

theorem mem_pieces_iff {c : UInt8} (hc : c ≠ 44) {list : Bytes} :
    (∃ piece ∈ pieces list, c ∈ piece) ↔ c ∈ list :=
  Words.mem_splitOnP_iff (p := (· = (44 : UInt8))) (decide_eq_false hc)

theorem nil_mem_pieces {list : Bytes} (h : list.getLast? = some 44) : [] ∈ pieces list := by
  obtain ⟨init, rfl⟩ := List.getLast?_eq_some_iff.mp h
  rw [pieces, List.splitOnP_append_cons (p := (· = (44 : UInt8))) _ _ (decide_eq_true rfl)]
  simp

def Clean (list : Bytes) : Prop := 0 ∉ list ∧ list.getLast? ≠ some 44

instance (list : Bytes) : Decidable (Clean list) := inferInstanceAs (Decidable (_ ∧ _))

theorem readPieces_clean {list : Bytes} (h : Clean list) : readPieces list = pieces list := by
  have hread : ∀ piece ∈ pieces list, readPiece piece = piece := by
    intro piece hpiece
    have hnul : ∀ c ∈ piece, decide (c ≠ (0 : UInt8)) = true := by
      intro c hc
      exact decide_eq_true fun heq => h.1 ((mem_pieces_iff (by decide)).mp ⟨piece, hpiece, heq ▸ hc⟩)
    rw [readPiece, cString, List.takeWhile_eq_self_iff.mpr hnul, ite_self]
  rw [readPieces, if_neg h.2]
  exact List.map_congr_left hread |>.trans (List.map_id _)

/-- A piece with a NUL, and the empty one behind a comma at the end, are malformed. -/
theorem clean_of_allowed (htext : inet.Textual) {list : Bytes}
    (h : Allowed inet peer (pieces list)) : Clean list := by
  constructor
  · intro hnul
    obtain ⟨piece, hpiece, hmem⟩ := (mem_pieces_iff (by decide)).mpr hnul
    obtain ⟨addr, bits, hcidr⟩ := h.1 piece hpiece
    exact hcidr.2.1 hmem
  · intro hcomma
    obtain ⟨addr, bits, hcidr⟩ := h.1 [] (nil_mem_pieces hcomma)
    exact not_cidr_nil htext addr bits hcidr

end List

/-- `inet_pton` on the addresses of two small lists. -/
def tinyInet : InetPton where
  v4 text :=
    if text = ascii "10.0.0.0" then some [10, 0, 0, 0]
    else if text = ascii "10.1.2.3" then some [10, 1, 2, 3]
    else none
  v6 _ := none

theorem tinyInet_textual : tinyInet.Textual := by
  constructor
  · intro text addr h
    simp only [tinyInet] at h
    split at h
    · rename_i htext
      obtain rfl := Option.some.inj h
      rw [htext]
      decide +kernel
    · split at h
      · rename_i htext
        obtain rfl := Option.some.inj h
        rw [htext]
        decide +kernel
      · simp at h
  · intro text addr h
    simp [tinyInet] at h

/-- A comma at the end starts an empty piece that the daemon does not see. -/
theorem trailing_comma_allowed :
    ¬ ∀ inet : InetPton, inet.Textual → ∀ list peerIp : Bytes, list ≠ [] →
      (osshSourceAddrMatch inet list peerIp = true ↔
        ∃ peer, peerAddr inet peerIp = some peer ∧ Allowed inet peer (pieces list)) := by
  intro h
  have htext := tinyInet_textual
  have hmatch : osshSourceAddrMatch tinyInet (ascii "10.0.0.0/8,") (ascii "10.1.2.3") = true := by decide
  obtain ⟨peer, -, hallowed⟩ := (h tinyInet htext _ _ (by decide)).mp hmatch
  exact (clean_of_allowed htext hallowed).2 (by decide)

/-- The list is all or nothing unless a comma at its end or a NUL hides a piece of it, and what is
left allows the peer. -/
theorem source_address_all_or_nothing (inet : InetPton) (htext : inet.Textual) (list peerIp : Bytes) :
    (osshSourceAddrMatch inet list peerIp = true ↔
        ∃ peer, peerAddr inet peerIp = some peer ∧ Allowed inet peer (pieces list)) ↔
      Clean list ∨ ∀ peer, peerAddr inet peerIp = some peer → ¬ Allowed inet peer (readPieces list) := by
  rw [osshSourceAddrMatch_iff htext]
  constructor
  · intro hiff
    by_cases hclean : Clean list
    · exact .inl hclean
    · right
      intro peer hpeer hallowed
      obtain ⟨peer', -, hallowed'⟩ := hiff.mp ⟨peer, hpeer, hallowed⟩
      exact hclean (clean_of_allowed htext hallowed')
  · rintro (hclean | hdenied)
    · rw [readPieces_clean hclean]
    · constructor
      · rintro ⟨peer, hpeer, hallowed⟩
        exact absurd hallowed (hdenied peer hpeer)
      · rintro ⟨peer, hpeer, hallowed⟩
        rw [← readPieces_clean (clean_of_allowed htext hallowed)] at hallowed
        exact absurd hallowed (hdenied peer hpeer)

/-- A list that allows the peer, and the same one with a malformed piece behind. -/
theorem source_address_all_or_nothing_tiny :
    (∃ peer, peerAddr tinyInet (ascii "10.1.2.3") = some peer ∧
      Allowed tinyInet peer (pieces (ascii "10.0.0.0,10.0.0.0/8"))) ∧
    ¬ ∃ peer, peerAddr tinyInet (ascii "10.1.2.3") = some peer ∧
      Allowed tinyInet peer (pieces (ascii "10.0.0.0,10.0.0.0/8,10.0.0.0/40")) := by
  constructor
  · have hiff := (source_address_all_or_nothing tinyInet tinyInet_textual
      (ascii "10.0.0.0,10.0.0.0/8") (ascii "10.1.2.3")).mpr (.inl (by decide))
    exact hiff.mp (by decide +kernel)
  · have hiff := (source_address_all_or_nothing tinyInet tinyInet_textual
      (ascii "10.0.0.0,10.0.0.0/8,10.0.0.0/40") (ascii "10.1.2.3")).mpr (.inl (by decide))
    exact fun hallowed => absurd (hiff.mpr hallowed) (by decide +kernel)

end WolfSsh.Ossh
