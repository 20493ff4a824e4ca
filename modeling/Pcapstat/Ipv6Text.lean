import Pcapstat.Numerals

/-! # The text form of IPv6 addresses

The grammar of the text form: eight groups of one to four hexadecimal digits, separated by colons.
One `::` may stand for a run of zero groups, and a dotted quad for the last two groups.

* `read` is the address that a text denotes.
* The texts that a writer puts together of groups (`colons`), a gap and a dotted quad (`quad`) denote
  the groups that went into them (`readGroups_colons`, `readGroups_gap`, `readGroups_quad`). -/

namespace Ipv6Text

/-! ### The grammar -/

/-- One to four hexadecimal digits. -/
def readGroup (s : List Char) : Option ℕ := if s.length ≤ 4 then Numeral.read 16 s else none

/-- A decimal number below 256 without a zero in front. -/
def readOctet (s : List Char) : Option ℕ :=
  (Numeral.read 10 s).filter fun n => n < 256 && s = Nat.toDigits 10 n

/-- Four octets with dots between them. -/
def readOctets (s : List Char) : Option (List ℕ) :=
  ((s.splitOn '.').mapM readOctet).filter fun octets => octets.length = 4

/-- The two groups of a dotted quad. -/
def readQuad (s : List Char) : Option (List ℕ) :=
  (readOctets s).map fun octets =>
    [256 * octets.getD 0 0 + octets.getD 1 0, 256 * octets.getD 2 0 + octets.getD 3 0]

/-- The groups between colons; with `last`, a dotted quad may end them. -/
def readPieces (last : Bool) : List (List Char) → Option (List ℕ)
  | [] => some []
  | [s] => if last ∧ '.' ∈ s then readQuad s else (readGroup s).map fun g => [g]
  | s :: rest => (readGroup s).bind fun g => (readPieces last rest).map fun gs => g :: gs

/-- The groups on one side of `::`, which may be none. -/
def readSide (last : Bool) (s : List Char) : Option (List ℕ) :=
  if s = [] then some [] else readPieces last (s.splitOn ':')

/-- What stands before and behind the first `::`. -/
def cutAtGap : List Char → Option (List Char × List Char)
  | [] => none
  | c :: s =>
      if c = ':' ∧ s.head? = some ':' then some ([], s.tail)
      else (cutAtGap s).map fun p => (c :: p.1, p.2)

/-- The eight groups of an address; `::` stands for at least one of them. -/
def readGroups (s : List Char) : Option (List ℕ) :=
  match cutAtGap s with
  | none => (readPieces true (s.splitOn ':')).filter fun gs => gs.length = 8
  | some (before, behind) =>
      (readSide false before).bind fun hi => (readSide true behind).bind fun lo =>
        if hi.length + lo.length < 8 then some (hi ++ List.replicate (8 - (hi.length + lo.length)) 0 ++ lo)
        else none

/-- The two bytes of a group. -/
def groupBytes (g : ℕ) : List UInt8 := [.ofNat (g / 256), .ofNat (g % 256)]

/-- The sixteen bytes of the address that a text denotes. -/
def read (s : List Char) : Option (List UInt8) := (readGroups s).map fun gs => gs.flatMap groupBytes

/-! ### Writing -/

/-- Groups with colons between them. -/
def colons (gs : List ℕ) : List Char := [':'].intercalate (gs.map (Nat.toDigits 16))

/-- Octets with dots between them. -/
def dots (octets : List ℕ) : List Char := ['.'].intercalate (octets.map (Nat.toDigits 10))

/-- Groups with colons between them, and a dotted quad behind. -/
def colonsQuad (gs octets : List ℕ) : List Char := [':'].intercalate (gs.map (Nat.toDigits 16) ++ [dots octets])

section pieces

variable {g : ℕ} {gs octets : List ℕ} {last : Bool}

theorem colon_not_mem_group : ':' ∉ Nat.toDigits 16 g :=
  Numeral.not_mem_toDigits (by decide) (by decide) (by decide)

theorem dot_not_mem_group : '.' ∉ Nat.toDigits 16 g :=
  Numeral.not_mem_toDigits (by decide) (by decide) (by decide)

theorem length_group_le (h : g < 65536) : (Nat.toDigits 16 g).length ≤ 4 :=
  (Nat.length_toDigits_le_iff (by decide) (by decide)).mpr h

theorem readGroup_group (h : g < 65536) : readGroup (Nat.toDigits 16 g) = some g := by
  unfold readGroup
  rw [if_pos (length_group_le h), Numeral.read_toDigits (by decide) (by decide)]

theorem readOctet_octet {n : ℕ} (h : n < 256) : readOctet (Nat.toDigits 10 n) = some n := by
  unfold readOctet
  rw [Numeral.read_toDigits (by decide) (by decide), Option.filter_some, if_pos]
  simpa using h

theorem mapM_octets (hlt : ∀ n ∈ octets, n < 256) :
    (octets.map (Nat.toDigits 10)).mapM readOctet = some octets := by
  induction octets with
  | nil => rfl
  | cons n octets ih =>
      have hrest := ih fun k hk => hlt k (List.mem_cons_of_mem _ hk)
      rw [List.map_cons, List.mapM_cons, readOctet_octet (hlt n List.mem_cons_self), hrest]
      rfl

theorem readOctets_dots (hlt : ∀ n ∈ octets, n < 256) (hlen : octets.length = 4) :
    readOctets (dots octets) = some octets := by
  have hne : octets.map (Nat.toDigits 10) ≠ [] := by
    intro h
    rw [List.map_eq_nil_iff.mp h] at hlen
    cases hlen
  have hdot : ∀ s ∈ octets.map (Nat.toDigits 10), '.' ∉ s := by
    intro s hs
    obtain ⟨n, -, rfl⟩ := List.mem_map.mp hs
    exact Numeral.not_mem_toDigits (by decide) (by decide) (by decide)
  unfold readOctets dots
  rw [List.splitOn_intercalate '.' hdot hne, mapM_octets hlt, Option.filter_some, if_pos (by simpa using hlen)]

theorem readQuad_dots (hlt : ∀ n ∈ octets, n < 256) (hlen : octets.length = 4) :
    readQuad (dots octets) =
      some [256 * octets.getD 0 0 + octets.getD 1 0, 256 * octets.getD 2 0 + octets.getD 3 0] := by
  unfold readQuad
  rw [readOctets_dots hlt hlen, Option.map_some]

theorem readPieces_cons {s : List Char} {rest : List (List Char)} (hs : readGroup s = some g) (hdot : '.' ∉ s)
    (hrest : readPieces last rest = some gs) : readPieces last (s :: rest) = some (g :: gs) := by
  cases rest with
  | nil =>
      unfold readPieces at hrest ⊢
      rw [if_neg fun h => hdot h.2, hs, ← Option.some.inj hrest]
      rfl
  | cons t rest =>
      unfold readPieces
      rw [hs, Option.bind_some, hrest]
      rfl

theorem readPieces_groups (hlt : ∀ g ∈ gs, g < 65536) {rest : List (List Char)} {lo : List ℕ}
    (hrest : readPieces last rest = some lo) :
    readPieces last (gs.map (Nat.toDigits 16) ++ rest) = some (gs ++ lo) := by
  induction gs with
  | nil => exact hrest
  | cons g gs ih =>
      have htail := ih fun k hk => hlt k (List.mem_cons_of_mem _ hk)
      exact readPieces_cons (readGroup_group (hlt g List.mem_cons_self)) dot_not_mem_group htail

theorem readPieces_map (hlt : ∀ g ∈ gs, g < 65536) :
    readPieces last (gs.map (Nat.toDigits 16)) = some gs := by
  have h := readPieces_groups hlt (show readPieces last [] = some [] from rfl)
  rwa [List.append_nil, List.append_nil] at h

theorem dot_mem_dots (hlen : octets.length = 4) : '.' ∈ dots octets := by
  match octets, hlen with
  | [a, b, c, d], _ => simp [dots]

theorem readPieces_quad (hlen : octets.length = 4) : readPieces true [dots octets] = readQuad (dots octets) := by
  unfold readPieces
  rw [if_pos ⟨rfl, dot_mem_dots hlen⟩]

/-! ### Splitting at the colons -/

theorem splitOn_colons (h : gs ≠ []) : (colons gs).splitOn ':' = gs.map (Nat.toDigits 16) := by
  unfold colons
  apply List.splitOn_intercalate
  · intro s hs
    obtain ⟨g, -, rfl⟩ := List.mem_map.mp hs
    exact colon_not_mem_group
  · exact fun hnil => h (List.map_eq_nil_iff.mp hnil)

theorem not_mem_dots {c : Char} (hdigit : Numeral.digitValue c = none) (hdot : c ≠ '.') : c ∉ dots octets := by
  unfold dots
  induction octets with
  | nil => exact List.not_mem_nil
  | cons n octets ih =>
      have hn : c ∉ Nat.toDigits 10 n := Numeral.not_mem_toDigits (by decide) (by decide) hdigit
      cases octets with
      | nil => simpa using hn
      | cons k octets =>
          rw [List.map_cons, List.intercalate_cons_of_ne_nil (by simp)]
          simpa using ⟨hn, hdot, ih⟩

theorem colon_not_mem_dots : ':' ∉ dots octets := not_mem_dots (by decide) (by decide)

theorem colonsQuad_singleton : colonsQuad [g] octets = Nat.toDigits 16 g ++ ':' :: dots octets := by
  unfold colonsQuad
  rw [List.map_singleton, List.singleton_append, List.intercalate_cons_of_ne_nil (List.cons_ne_nil _ _),
    List.intercalate_singleton, List.append_assoc]
  rfl

theorem splitOn_colonsQuad : (colonsQuad gs octets).splitOn ':' = gs.map (Nat.toDigits 16) ++ [dots octets] := by
  unfold colonsQuad
  apply List.splitOn_intercalate
  · intro s hs
    rcases List.mem_append.mp hs with hs | hs
    · obtain ⟨g, -, rfl⟩ := List.mem_map.mp hs
      exact colon_not_mem_group
    · rw [List.mem_singleton.mp hs]
      exact colon_not_mem_dots
  · simp

theorem colons_cons (h : gs ≠ []) : colons (g :: gs) = Nat.toDigits 16 g ++ ':' :: colons gs := by
  unfold colons
  rw [List.map_cons, List.intercalate_cons_of_ne_nil fun hnil => h (List.map_eq_nil_iff.mp hnil)]
  simp

theorem colons_singleton : colons [g] = Nat.toDigits 16 g := by
  unfold colons
  rw [List.map_singleton, List.intercalate_singleton]

theorem colons_ne_nil (h : gs ≠ []) : colons gs ≠ [] := by
  cases gs with
  | nil => exact absurd rfl h
  | cons g gs =>
      cases gs with
      | nil =>
          rw [colons_singleton]
          exact Nat.toDigits_ne_nil
      | cons k gs =>
          rw [colons_cons (by simp)]
          simp

/-- The pieces between the colons are the groups, or one that is empty. -/
theorem mem_splitOn_colons {w : List Char} (h : w ∈ (colons gs).splitOn ':') :
    w = [] ∨ ∃ g ∈ gs, w = Nat.toDigits 16 g := by
  by_cases hnil : gs = []
  · rw [hnil] at h
    exact .inl (List.mem_singleton.mp h)
  · rw [splitOn_colons hnil] at h
    obtain ⟨g, hg, rfl⟩ := List.mem_map.mp h
    exact .inr ⟨g, hg, rfl⟩

/-- Groups with a colon in front of each. -/
def eachColon (gs : List ℕ) : List Char := gs.flatMap fun g => ':' :: Nat.toDigits 16 g

theorem colons_eq : colons (g :: gs) = Nat.toDigits 16 g ++ eachColon gs := by
  induction gs generalizing g with
  | nil =>
      rw [colons_singleton]
      exact (List.append_nil _).symm
  | cons k gs ih =>
      rw [colons_cons (by simp), ih]
      rfl

theorem not_mem_colons {c : Char} (hdigit : Numeral.digitValue c = none) (hcolon : c ≠ ':') : c ∉ colons gs := by
  have hgroup : ∀ g, c ∉ Nat.toDigits 16 g := fun g => Numeral.not_mem_toDigits (by decide) (by decide) hdigit
  have htail : c ∉ eachColon gs.tail := by
    intro h
    obtain ⟨g, -, hmem⟩ := List.mem_flatMap.mp h
    exact (List.mem_cons.mp hmem).elim hcolon (hgroup g)
  cases gs with
  | nil => exact List.not_mem_nil
  | cons g gs =>
      rw [colons_eq]
      exact fun h => (List.mem_append.mp h).elim (hgroup g) htail

theorem dot_not_mem_colons : '.' ∉ colons gs := not_mem_colons (by decide) (by decide)

theorem length_eachColon (hlt : ∀ g ∈ gs, g < 65536) : (eachColon gs).length ≤ 5 * gs.length := by
  induction gs with
  | nil => exact Nat.le_refl 0
  | cons g gs ih =>
      have hg : (Nat.toDigits 16 g).length ≤ 4 := length_group_le (hlt g List.mem_cons_self)
      have hgs : (eachColon gs).length ≤ 5 * gs.length := ih fun k hk => hlt k (List.mem_cons_of_mem _ hk)
      have hcons : eachColon (g :: gs) = ':' :: Nat.toDigits 16 g ++ eachColon gs := rfl
      rw [hcons, List.length_append, List.length_cons, List.length_cons]
      omega

theorem length_colons (hlt : ∀ g ∈ gs, g < 65536) : (colons gs).length ≤ 5 * gs.length - 1 := by
  cases gs with
  | nil => exact Nat.le_refl 0
  | cons g gs =>
      have hg : (Nat.toDigits 16 g).length ≤ 4 := length_group_le (hlt g List.mem_cons_self)
      have hgs : (eachColon gs).length ≤ 5 * gs.length :=
        length_eachColon fun k hk => hlt k (List.mem_cons_of_mem _ hk)
      rw [colons_eq, List.length_append, List.length_cons]
      omega

theorem length_octet_le {n : ℕ} (h : n < 256) : (Nat.toDigits 10 n).length ≤ 3 :=
  (Nat.length_toDigits_le_iff (by decide) (by decide)).mpr (by omega)

theorem length_dots (hlt : ∀ n ∈ octets, n < 256) (hlen : octets.length = 4) : (dots octets).length ≤ 15 := by
  match octets, hlen with
  | [a, b, c, d], _ =>
      have ha : (Nat.toDigits 10 a).length ≤ 3 := length_octet_le (hlt a (by simp))
      have hb : (Nat.toDigits 10 b).length ≤ 3 := length_octet_le (hlt b (by simp))
      have hc : (Nat.toDigits 10 c).length ≤ 3 := length_octet_le (hlt c (by simp))
      have hd : (Nat.toDigits 10 d).length ≤ 3 := length_octet_le (hlt d (by simp))
      simp [dots]
      omega

theorem readSide_colons (hlt : ∀ g ∈ gs, g < 65536) : readSide last (colons gs) = some gs := by
  unfold readSide
  by_cases h : gs = []
  · rw [h]
    rfl
  · rw [if_neg (colons_ne_nil h), splitOn_colons h, readPieces_map hlt]

theorem readSide_quad (hgs : ∀ g ∈ gs, g < 65536) (hlt : ∀ n ∈ octets, n < 256) (hlen : octets.length = 4) :
    readSide true (colonsQuad gs octets) =
      some (gs ++ [256 * octets.getD 0 0 + octets.getD 1 0, 256 * octets.getD 2 0 + octets.getD 3 0]) := by
  have hne : colonsQuad gs octets ≠ [] := by
    intro hnil
    have hsplit := @splitOn_colonsQuad gs octets
    rw [hnil] at hsplit
    cases gs with
    | nil =>
        have hdots : [] = dots octets := (List.cons.inj hsplit).1
        match octets, hlen with
        | [a, b, c, d], _ => simp [dots] at hdots
    | cons g gs => exact Nat.toDigits_ne_nil (List.cons.inj hsplit).1.symm
  unfold readSide
  rw [if_neg hne, splitOn_colonsQuad]
  exact readPieces_groups hgs ((readPieces_quad hlen).trans (readQuad_dots hlt hlen))

end pieces

/-! ### The gap -/

section gap

variable {s t : List Char} {gs hi lo octets : List ℕ}

/-- The pieces around a gap are those on its two sides and one that is empty. -/
theorem mem_splitOn_gap {w : List Char} (h : w ∈ (s ++ ':' :: ':' :: t).splitOn ':') :
    w ∈ s.splitOn ':' ∨ w = [] ∨ w ∈ t.splitOn ':' := by
  have hbehind : (':' :: t).splitOn ':' = [] :: t.splitOn ':' := List.splitOn_append_cons_self [] t
  rw [List.splitOn_append_cons_self, hbehind, List.mem_append, List.mem_cons] at h
  exact h

theorem cutAtGap_here : cutAtGap (':' :: ':' :: s) = some ([], s) := rfl

theorem cutAtGap_skip {c : Char} (h : c = ':' → s.head? ≠ some ':') :
    cutAtGap (c :: s) = (cutAtGap s).map fun p => (c :: p.1, p.2) := by
  rw [cutAtGap, if_neg fun hc => h hc.1 hc.2]

theorem cutAtGap_append (h : ':' ∉ s) : cutAtGap (s ++ t) = (cutAtGap t).map fun p => (s ++ p.1, p.2) := by
  induction s with
  | nil =>
      rw [List.nil_append]
      exact Option.map_id'.symm
  | cons c s ih =>
      have hc : c ≠ ':' := fun hc => h (hc ▸ List.mem_cons_self)
      have hs : ':' ∉ s := fun hs => h (List.mem_cons_of_mem _ hs)
      rw [List.cons_append, cutAtGap_skip fun hc' => absurd hc' hc, ih hs, Option.map_map]
      rfl

theorem cutAtGap_colons : cutAtGap (colons gs ++ t) = (cutAtGap t).map fun p => (colons gs ++ p.1, p.2) := by
  induction gs with
  | nil => exact Option.map_id'.symm
  | cons g gs ih =>
      by_cases hnil : gs = []
      · rw [hnil, colons_singleton]
        exact cutAtGap_append colon_not_mem_group
      · -- a colon with a digit behind it
        have hhead : (colons gs ++ t).head? ≠ some ':' := by
          intro hc
          cases gs with
          | nil => exact hnil rfl
          | cons k gs =>
              have hfirst : (Nat.toDigits 16 k).head? = some ':' := by
                rw [← hc]
                cases gs with
                | nil => rw [colons_singleton, List.head?_append_of_ne_nil _ Nat.toDigits_ne_nil]
                | cons m gs =>
                    rw [colons_cons (by simp), List.append_assoc,
                      List.head?_append_of_ne_nil _ Nat.toDigits_ne_nil]
              exact colon_not_mem_group (List.mem_of_mem_head? hfirst)
        rw [colons_cons hnil, List.append_assoc, cutAtGap_append colon_not_mem_group, List.cons_append,
          cutAtGap_skip fun _ => hhead, ih, Option.map_map, Option.map_map]
        congr 1
        funext p
        simp

theorem cutAtGap_colons_eq_none : cutAtGap (colons gs) = none := by
  have h := @cutAtGap_colons [] gs
  rwa [List.append_nil] at h

theorem cutAtGap_eq_none_iff : cutAtGap s = none ↔ ¬ [':', ':'] <:+: s := by
  induction s with
  | nil => simp [cutAtGap]
  | cons c s ih =>
      have hprefix : [':', ':'] <+: c :: s ↔ c = ':' ∧ s.head? = some ':' := by
        cases s with
        | nil => simp
        | cons d s => simp [eq_comm]
      rw [List.infix_cons_iff, hprefix, cutAtGap]
      split
      · rename_i h
        simp [h]
      · rename_i h
        rw [Option.map_eq_none_iff, ih, or_iff_right h]

theorem readGroups_colons (hlt : ∀ g ∈ gs, g < 65536) (hlen : gs.length = 8) :
    readGroups (colons gs) = some gs := by
  have hne : gs ≠ [] := by
    intro h
    rw [h] at hlen
    cases hlen
  unfold readGroups
  rw [cutAtGap_colons_eq_none]
  show (readPieces true ((colons gs).splitOn ':')).filter _ = _
  rw [splitOn_colons hne, readPieces_map hlt, Option.filter_some, if_pos (by simpa using hlen)]

theorem readGroups_sides {before behind : List Char} (hcut : cutAtGap s = some (before, behind))
    (hhi : readSide false before = some hi) (hlo : readSide true behind = some lo)
    (hlen : hi.length + lo.length < 8) :
    readGroups s = some (hi ++ List.replicate (8 - (hi.length + lo.length)) 0 ++ lo) := by
  unfold readGroups
  rw [hcut]
  show (readSide false before).bind _ = _
  rw [hhi, Option.bind_some, hlo, Option.bind_some, if_pos hlen]

theorem cutAtGap_colons_gap : cutAtGap (colons gs ++ ':' :: ':' :: t) = some (colons gs, t) := by
  rw [cutAtGap_colons, cutAtGap_here, Option.map_some, List.append_nil]

/-- **A gap denotes the zero groups that are missing.** -/
theorem readGroups_gap (hhi : ∀ g ∈ hi, g < 65536) (hlo : ∀ g ∈ lo, g < 65536)
    (hlen : hi.length + lo.length < 8) :
    readGroups (colons hi ++ ':' :: ':' :: colons lo) =
      some (hi ++ List.replicate (8 - (hi.length + lo.length)) 0 ++ lo) :=
  readGroups_sides cutAtGap_colons_gap (readSide_colons hhi) (readSide_colons hlo) hlen

theorem readGroups_quad (hhi : ∀ g ∈ hi, g < 65536) (hlo : ∀ g ∈ lo, g < 65536)
    (hoctets : ∀ n ∈ octets, n < 256)
    (hfour : octets.length = 4) (hlen : hi.length + lo.length < 6) :
    readGroups (colons hi ++ ':' :: ':' :: colonsQuad lo octets) =
      some (hi ++ List.replicate (6 - (hi.length + lo.length)) 0 ++
        (lo ++ [256 * octets.getD 0 0 + octets.getD 1 0, 256 * octets.getD 2 0 + octets.getD 3 0])) := by
  rw [readGroups_sides cutAtGap_colons_gap (readSide_colons hhi) (readSide_quad hlo hoctets hfour)]
  · congr 4
    simp
    omega
  · simp
    omega

end gap

end Ipv6Text
