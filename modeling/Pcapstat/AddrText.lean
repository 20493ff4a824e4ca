import Pcapstat.Ipv6Text
import Pcapstat.PcapWriter
import Pcapstat.Report

/-! # IPv6 addresses as text (`addr.c`)

The search of `format_ipv6` finds the longest run of zero groups, the first one on a tie
(`longestRun_spec`), and its second loop writes the groups around that run with one `::` for it
(`putGroups_gap`).  Nothing is cut off, so the text is that of RFC 5952 (`Rfc5952`), and the grammar
of the text form reads it back as the address. -/

namespace Pcapstat

open Ipv6Text

/-! ### The longest run of zero groups -/

/-- `n` zero groups from `s` on. -/
def ZeroRun (groups : ℕ → UInt16) (s n : ℕ) : Prop := s + n ≤ 8 ∧ ∀ k < n, groups (s + k) = 0

/-- The run of `n` zero groups from `s` on is the longest, and no other of its length comes before it. -/
structure LongestRun (groups : ℕ → UInt16) (s n : ℕ) : Prop where
  run : ZeroRun groups s n
  longest : ∀ t m, ZeroRun groups t m → m ≤ n
  first : ∀ t, ZeroRun groups t n → s ≤ t

/-- `start` and `len` are those of the longest run among the runs that begin before `i`. -/
structure BestBefore (groups : ℕ → UInt16) (i : ℕ) (start : Option ℕ) (len : ℕ) : Prop where
  missing : start = none → len = 0
  found : ∀ s, start = some s → 0 < len ∧ s + len ≤ i ∧ ZeroRun groups s len
  best : ∀ t m, t < i → ZeroRun groups t m → m ≤ len ∧ (m = len → ∀ s, start = some s → s ≤ t)

section longest

variable {groups : ℕ → UInt16} {start : Option ℕ} {i j len : ℕ}

theorem zeroRunEnd_spec (groups : ℕ → UInt16) (left j : ℕ) :
    j ≤ zeroRunEnd groups left j ∧ zeroRunEnd groups left j ≤ j + left ∧
      (∀ k, j ≤ k → k < zeroRunEnd groups left j → groups k = 0) ∧
      (zeroRunEnd groups left j < j + left → groups (zeroRunEnd groups left j) ≠ 0) := by
  induction left generalizing j with
  | zero => exact ⟨le_rfl, le_rfl, fun k hk hlt => absurd hk (Nat.not_le.mpr hlt), fun h => absurd h (lt_irrefl _)⟩
  | succ left ih =>
      unfold zeroRunEnd
      by_cases hj : groups j = 0
      · rw [if_pos hj]
        obtain ⟨hle, hend, hzero, hstop⟩ := ih (j + 1)
        refine ⟨by omega, by omega, ?_, fun hlt => hstop (by omega)⟩
        intro k hk hlt
        rcases Nat.eq_or_lt_of_le hk with rfl | hk
        · exact hj
        · exact hzero k hk hlt
      · rw [if_neg hj]
        exact ⟨le_rfl, by omega, fun k hk hlt => absurd hk (Nat.not_le.mpr hlt), fun _ => hj⟩

/-- A run that begins between `i` and `j` ends by `j` if the group at `j` is not zero. -/
theorem ZeroRun.le_end {t m : ℕ} (h : ZeroRun groups t m) (ht : t ≤ j) (hstop : j < 8 → groups j ≠ 0) :
    t + m ≤ j := by
  by_contra hlong
  have hend : t + m ≤ 8 := h.1
  apply hstop (by omega)
  have hzero : groups (t + (j - t)) = 0 := h.2 (j - t) (by omega)
  rwa [Nat.add_sub_cancel' ht] at hzero

theorem BestBefore.skip (h : BestBefore groups i start len) (hi : groups i ≠ 0) :
    BestBefore groups (i + 1) start len where
  missing := h.missing
  found s hs := by
    obtain ⟨hpos, hend, hrun⟩ := h.found s hs
    exact ⟨hpos, by omega, hrun⟩
  best t m ht hrun := by
    rcases Nat.eq_or_lt_of_le (Nat.lt_succ_iff.mp ht) with rfl | ht
    · have hzero : m = 0 := by
        have hend : t + m ≤ t := hrun.le_end le_rfl fun _ => hi
        omega
      refine ⟨by omega, fun hlen s hs => ?_⟩
      have hpos : 0 < len := (h.found s hs).1
      omega
    · exact h.best t m ht hrun

/-- The run from `i` to `j` is the new best one if it is longer. -/
theorem BestBefore.longer (h : BestBefore groups i start len) (hrun : ZeroRun groups i (j - i))
    (hstop : j < 8 → groups j ≠ 0) (hlen : j - i > len) : BestBefore groups j (some i) (j - i) where
  missing hnone := by cases hnone
  found s hs := by
    rw [← Option.some.inj hs]
    exact ⟨by omega, by omega, hrun⟩
  best t m ht hzero := by
    by_cases hti : t < i
    · have hle : m ≤ len := (h.best t m hti hzero).1
      exact ⟨by omega, fun hm => by omega⟩
    · have hend : t + m ≤ j := hzero.le_end (by omega) hstop
      refine ⟨by omega, fun hm s hs => ?_⟩
      rw [← Option.some.inj hs]
      omega

/-- The run from `i` to `j` leaves the best one as it is if it is not longer. -/
theorem BestBefore.shorter (h : BestBefore groups i start len) (hij : i < j) (hstop : j < 8 → groups j ≠ 0)
    (hlen : ¬ j - i > len) : BestBefore groups j start len where
  missing := h.missing
  found s hs := by
    obtain ⟨hpos, hend, hrun⟩ := h.found s hs
    exact ⟨hpos, by omega, hrun⟩
  best t m ht hzero := by
    by_cases hti : t < i
    · exact h.best t m hti hzero
    · have hend : t + m ≤ j := hzero.le_end (by omega) hstop
      refine ⟨by omega, fun hm s hs => ?_⟩
      obtain ⟨-, hbefore, -⟩ := h.found s hs
      omega

theorem longestRun_best {fuel : ℕ} (h : BestBefore groups i start len) (hi : i ≤ 8) (hfuel : 8 ≤ i + fuel) :
    BestBefore groups 8 (longestRun groups fuel i start len).1 (longestRun groups fuel i start len).2 := by
  induction fuel generalizing i start len with
  | zero =>
      have hend : i = 8 := by omega
      rwa [hend] at h
  | succ fuel ih =>
      unfold longestRun
      split_ifs with hend hi0
      · have hend : i = 8 := by omega
        rwa [hend] at h
      · exact ih (h.skip hi0) (by omega) (by omega)
      · obtain ⟨hle, hbound, hzero, hstop⟩ := zeroRunEnd_spec groups (8 - i) i
        generalize zeroRunEnd groups (8 - i) i = j at hle hbound hzero hstop
        have hlt : i < j := by
          rcases Nat.eq_or_lt_of_le hle with rfl | hlt
          · exact absurd (not_not.mp hi0) (hstop (by omega))
          · exact hlt
        have hrun : ZeroRun groups i (j - i) := ⟨by omega, fun k hk => hzero (i + k) (by omega) (by omega)⟩
        have hstop' : j < 8 → groups j ≠ 0 := fun hj => hstop (by omega)
        show BestBefore groups 8 (if j - i > len then longestRun groups fuel j (some i) (j - i)
          else longestRun groups fuel j start len).1 (if j - i > len then longestRun groups fuel j (some i) (j - i)
          else longestRun groups fuel j start len).2
        split_ifs with hlen
        · exact ih (h.longer hrun hstop' hlen) (by omega) (by omega)
        · exact ih (h.shorter hlt hstop' hlen) (by omega) (by omega)

/-- **The search finds the longest run, the first one on a tie.** -/
theorem longestRun_spec (groups : ℕ → UInt16) :
    ((longestRun groups 8 0 none 0).1 = none → ∀ t m, ZeroRun groups t m → m = 0) ∧
      ∀ s, (longestRun groups 8 0 none 0).1 = some s →
        LongestRun groups s (longestRun groups 8 0 none 0).2 := by
  have hstart : BestBefore groups 0 none 0 := by
    refine ⟨fun _ => rfl, ?_, fun t _ ht => absurd ht (Nat.not_lt_zero t)⟩
    intro s hs
    cases hs
  have h := @longestRun_best groups none 0 0 8 hstart (by omega) (by omega)
  generalize longestRun groups 8 0 none 0 = found at h ⊢
  have hbest : ∀ t m, 0 < m → ZeroRun groups t m → m ≤ found.2 := by
    intro t m hm hrun
    have hend : t + m ≤ 8 := hrun.1
    exact (h.best t m (by omega) hrun).1
  constructor
  · intro hnone t m hrun
    have hlen : found.2 = 0 := h.missing hnone
    by_contra hm
    have hle : m ≤ found.2 := hbest t m (by omega) hrun
    omega
  · intro s hs
    obtain ⟨hpos, -, hrun⟩ := h.found s hs
    refine ⟨hrun, fun t m hrun' => ?_, fun t hrun' => ?_⟩
    · rcases Nat.eq_zero_or_pos m with rfl | hm
      · exact Nat.zero_le _
      · exact hbest t m hm hrun'
    · have hend : t + found.2 ≤ 8 := hrun'.1
      exact (h.best t found.2 (by omega) hrun').2 rfl s hs

end longest

/-! ### The groups and the gap -/

/-- The groups from `i` on, `n` of them. -/
def groupsFrom (groups : ℕ → UInt16) (i n : ℕ) : List ℕ := (List.range' i n).map fun k => (groups k).toNat

section loop

variable {groups : ℕ → UInt16} {start : Option ℕ} {fuel i s len : ℕ} {tmp : Text}

theorem groupsFrom_succ (n : ℕ) :
    groupsFrom groups i (n + 1) = (groups i).toNat :: groupsFrom groups (i + 1) n := by
  unfold groupsFrom
  rw [List.range'_succ, List.map_cons]

theorem length_groupsFrom (groups : ℕ → UInt16) (i n : ℕ) : (groupsFrom groups i n).length = n := by
  unfold groupsFrom
  rw [List.length_map, List.length_range']

theorem groupsFrom_lt (groups : ℕ → UInt16) (i n : ℕ) : ∀ g ∈ groupsFrom groups i n, g < 65536 := by
  intro g hg
  obtain ⟨k, -, rfl⟩ := List.mem_map.mp hg
  exact (groups k).toNat_lt

theorem put_eq {t : Text} (h : tmp.length + t.length ≤ 45) : put tmp t = tmp ++ t := by
  have hroom : t.length ≤ addrStrLen - 1 - tmp.length := by
    show t.length ≤ 45 - tmp.length
    omega
  unfold put
  rw [List.take_of_length_le hroom]

theorem length_hexadecimal (g : UInt16) : (hexadecimal g.toNat).length ≤ 4 := length_group_le g.toNat_lt

/-- A group with nothing in front: the first one, and the first one behind the gap. -/
theorem putGroups_first (hi : i < 8) (hstart : start ≠ some i) (hsep : i = 0 ∨ start.map (· + len) = some i)
    (hroom : tmp.length ≤ 5 * i) :
    putGroups groups start len (fuel + 1) i tmp =
      putGroups groups start len fuel (i + 1) (tmp ++ hexadecimal (groups i).toNat) := by
  have hlen : (hexadecimal (groups i).toNat).length ≤ 4 := length_hexadecimal (groups i)
  have hno : ¬ (i > 0 ∧ start.map (· + len) ≠ some i) := by
    rintro ⟨hpos, hne⟩
    rcases hsep with hzero | hend
    · omega
    · exact hne hend
  rw [putGroups, if_neg (by omega), if_neg hstart, if_neg hno]
  show putGroups groups start len fuel (i + 1) (put tmp (hexadecimal (groups i).toNat)) = _
  rw [put_eq (by omega)]

theorem putGroups_colon (hi : i < 8) (hstart : start ≠ some i) (hpos : 0 < i) (hsep : start.map (· + len) ≠ some i)
    (hroom : tmp.length ≤ 5 * i) :
    putGroups groups start len (fuel + 1) i tmp =
      putGroups groups start len fuel (i + 1) (tmp ++ ':' :: hexadecimal (groups i).toNat) := by
  have hlen : (hexadecimal (groups i).toNat).length ≤ 4 := length_hexadecimal (groups i)
  have hput : put tmp ":".toList = tmp ++ [':'] := put_eq (by
    show tmp.length + 1 ≤ 45
    omega)
  rw [putGroups, if_neg (by omega), if_neg hstart, if_pos ⟨hpos, hsep⟩, hput]
  show putGroups groups start len fuel (i + 1) (put (tmp ++ [':']) (hexadecimal (groups i).toNat)) = _
  rw [put_eq (by
    rw [List.length_append, List.length_singleton]
    omega), List.append_assoc]
  rfl

theorem putGroups_rest (hpos : 0 < i) (hi : i ≤ 8) (hfuel : 8 ≤ i + fuel)
    (hstart : ∀ k, i ≤ k → start ≠ some k)
    (hsep : ∀ k, i ≤ k → start.map (· + len) ≠ some k) (hroom : tmp.length ≤ 5 * i) :
    putGroups groups start len fuel i tmp = tmp ++ eachColon (groupsFrom groups i (8 - i)) := by
  induction fuel generalizing i tmp with
  | zero =>
      have hend : i = 8 := by omega
      rw [hend]
      exact (List.append_nil tmp).symm
  | succ fuel ih =>
      rcases Nat.eq_or_lt_of_le hi with rfl | hlt
      · rw [putGroups, if_pos (le_refl 8)]
        exact (List.append_nil tmp).symm
      · have hlen : (hexadecimal (groups i).toNat).length ≤ 4 := length_hexadecimal (groups i)
        rw [putGroups_colon hlt (hstart i le_rfl) hpos (hsep i le_rfl) hroom,
          ih (by omega) hlt (by omega) (fun k hk => hstart k (by omega)) (fun k hk => hsep k (by omega)) (by
            rw [List.length_append, List.length_cons]
            omega),
          show 8 - i = 8 - (i + 1) + 1 by omega, groupsFrom_succ, List.append_assoc]
        rfl

/-- The groups behind the gap, or all of them if there is no gap. -/
theorem putGroups_behind (hi : i ≤ 8) (hfuel : 8 ≤ i + fuel) (hstart : ∀ k, i ≤ k → start ≠ some k)
    (hsep : i = 0 ∨ start.map (· + len) = some i) (hnext : ∀ k, i < k → start.map (· + len) ≠ some k)
    (hroom : tmp.length ≤ 5 * i) :
    putGroups groups start len fuel i tmp = tmp ++ colons (groupsFrom groups i (8 - i)) := by
  cases fuel with
  | zero =>
      have hend : i = 8 := by omega
      rw [hend]
      exact (List.append_nil tmp).symm
  | succ fuel =>
      rcases Nat.eq_or_lt_of_le hi with rfl | hlt
      · rw [putGroups, if_pos (le_refl 8)]
        exact (List.append_nil tmp).symm
      · have hlen : (hexadecimal (groups i).toNat).length ≤ 4 := length_hexadecimal (groups i)
        rw [putGroups_first hlt (hstart i le_rfl) hsep hroom,
          putGroups_rest (by omega) hlt (by omega) (fun k hk => hstart k (by omega))
            (fun k hk => hnext k (by omega)) (by
              rw [List.length_append]
              omega),
          show 8 - i = 8 - (i + 1) + 1 by omega, groupsFrom_succ, colons_eq, List.append_assoc]
        rfl

theorem start_ne {k : ℕ} (h : s ≠ k) : some s ≠ some k := fun hk => h (Option.some.inj hk)

theorem gapEnd_ne {k : ℕ} (h : s + len ≠ k) : (some s).map (· + len) ≠ some k := fun hk => h (Option.some.inj hk)

theorem putGroups_here (hlen : 2 ≤ len) (hrun : s + len ≤ 8) (hfuel : 8 ≤ s + (fuel + 1))
    (hroom : tmp.length ≤ 5 * s) :
    putGroups groups (some s) len (fuel + 1) s tmp =
      tmp ++ ':' :: ':' :: colons (groupsFrom groups (s + len) (8 - (s + len))) := by
  have hput : put tmp "::".toList = tmp ++ [':', ':'] := put_eq (by
    show tmp.length + 2 ≤ 45
    omega)
  rw [putGroups, if_neg (by omega), if_pos rfl, hput,
    putGroups_behind hrun (by omega) (fun k hk => start_ne (by omega)) (.inr rfl) (fun k hk => gapEnd_ne (by omega))
      (by
        rw [List.length_append]
        show tmp.length + 2 ≤ _
        omega),
    List.append_assoc]
  rfl

theorem putGroups_before (hlen : 2 ≤ len) (hrun : s + len ≤ 8) (hpos : 0 < i) (hi : i ≤ s)
    (hfuel : 8 ≤ i + fuel)
    (hroom : tmp.length ≤ 5 * i) :
    putGroups groups (some s) len fuel i tmp =
      tmp ++ eachColon (groupsFrom groups i (s - i)) ++
        ':' :: ':' :: colons (groupsFrom groups (s + len) (8 - (s + len))) := by
  induction fuel generalizing i tmp with
  | zero => omega
  | succ fuel ih =>
      rcases Nat.eq_or_lt_of_le hi with rfl | hlt
      · rw [putGroups_here hlen hrun hfuel hroom, Nat.sub_self]
        exact congrArg (· ++ _) (List.append_nil tmp).symm
      · have hhex : (hexadecimal (groups i).toNat).length ≤ 4 := length_hexadecimal (groups i)
        rw [putGroups_colon (by omega) (start_ne (by omega)) hpos (gapEnd_ne (by omega)) hroom,
          ih (by omega) hlt (by omega) (by
            rw [List.length_append, List.length_cons]
            omega),
          show s - i = s - (i + 1) + 1 by omega, groupsFrom_succ, List.append_assoc tmp]
        rfl

/-- One `::` stands for the run, and the groups around it are written with colons between them. -/
theorem putGroups_gap (hlen : 2 ≤ len) (hrun : s + len ≤ 8) :
    putGroups groups (some s) len 8 0 [] =
      colons (groupsFrom groups 0 s) ++ ':' :: ':' :: colons (groupsFrom groups (s + len) (8 - (s + len))) := by
  cases s with
  | zero => exact putGroups_here hlen hrun (by omega) (Nat.le_refl 0)
  | succ s =>
      have hhex : (hexadecimal (groups 0).toNat).length ≤ 4 := length_hexadecimal (groups 0)
      have hempty : ([] : Text).length ≤ 5 * 0 := Nat.le_refl 0
      rw [putGroups_first (by omega) (start_ne (by omega)) (.inl rfl) hempty,
        putGroups_before hlen hrun (by omega) (by omega) (by omega) (by
          rw [List.nil_append]
          omega),
        groupsFrom_succ, colons_eq]
      rfl

theorem putGroups_all : putGroups groups none len 8 0 [] = colons (groupsFrom groups 0 8) :=
  putGroups_behind (by omega) (by omega) (fun _ _ h => nomatch h) (.inl rfl) (fun _ _ h => nomatch h) (Nat.le_refl 0)

end loop

/-! ### The text of an address -/

/-- `::ffff:0:0/96`: 80 zero bits, then 16 one bits. -/
def V4Mapped (a : Addr) : Prop := a.bytes.take 12 = List.replicate 10 0 ++ [0xff, 0xff]

/-- The text that RFC 5952 asks for. -/
inductive Rfc5952 (a : Addr) : Text → Prop
  /-- an IPv4-mapped address with its dotted quad -/
  | mapped (h : V4Mapped a) :
      Rfc5952 a ("::ffff:".toList ++ dots ((a.bytes.drop 12).map UInt8.toNat))
  /-- one `::` for the longest run, the first one on a tie -/
  | gap {s n : ℕ} (h : ¬ V4Mapped a) (hrun : LongestRun (group a) s n) (hn : 2 ≤ n) :
      Rfc5952 a (colons (groupsFrom (group a) 0 s) ++
        ':' :: ':' :: colons (groupsFrom (group a) (s + n) (8 - (s + n))))
  /-- all groups -/
  | plain (h : ¬ V4Mapped a) (hno : ∀ s n, ZeroRun (group a) s n → n < 2) :
      Rfc5952 a (colons (groupsFrom (group a) 0 8))

section text

variable {a b : Addr} {text : Text}

theorem loadBe16_toNat (x y : UInt8) : (loadBe16 x y).toNat = 256 * x.toNat + y.toNat := by
  have hx : x.toNat < 256 := x.toNat_lt
  have hy : y.toNat < 256 := y.toNat_lt
  have hor : ∀ m n : ℕ, n < 2 ^ 8 → m <<< 8 ||| n = m * 2 ^ 8 + n := by
    intro m n hn
    rw [← Nat.shiftLeft_add_eq_or_of_lt hn, Nat.shiftLeft_eq]
  unfold loadBe16
  rw [UInt16.toNat_or, UInt16.toNat_shiftLeft]
  simp only [UInt8.toNat_toUInt16, UInt16.reduceToNat, Nat.reduceMod]
  rw [Nat.shiftLeft_eq, Nat.mod_eq_of_lt (by omega), ← Nat.shiftLeft_eq, hor _ _ hy]
  omega

theorem groupBytes_pair (x y : UInt8) : groupBytes (256 * x.toNat + y.toNat) = [x, y] := by
  have hy : y.toNat < 256 := y.toNat_lt
  have hhi : (256 * x.toNat + y.toNat) / 256 = x.toNat := by omega
  have hlo : (256 * x.toNat + y.toNat) % 256 = y.toNat := by omega
  unfold groupBytes
  rw [hhi, hlo, UInt8.ofNat_toNat, UInt8.ofNat_toNat]

theorem groupBytes_loadBe16 (x y : UInt8) : groupBytes (loadBe16 x y).toNat = [x, y] := by
  rw [loadBe16_toNat, groupBytes_pair]

theorem bytes_eq_getD (a : Addr) : a.bytes = (List.range 16).map fun i => a.bytes.getD i 0 := by
  apply List.ext_getElem
  · rw [List.length_map, List.length_range, a.length_eq]
  · intro i hi _
    rw [List.getElem_map, List.getElem_range, List.getD_eq_getElem _ _ hi]

theorem groupBytes_groups (a : Addr) : (groupsFrom (group a) 0 8).flatMap groupBytes = a.bytes := by
  have hpairs : (groupsFrom (group a) 0 8).flatMap groupBytes =
      (List.range' 0 8).flatMap fun i => [a.bytes.getD (2 * i) 0, a.bytes.getD (2 * i + 1) 0] := by
    unfold groupsFrom
    rw [List.flatMap_map]
    exact congrArg (fun f => List.flatMap f _) (funext fun i => groupBytes_loadBe16 _ _)
  rw [hpairs, bytes_eq_getD a]
  rfl

theorem isV4Mapped_iff (a : Addr) : isV4Mapped a = true ↔ V4Mapped a := by
  unfold isV4Mapped V4Mapped
  rw [bytes_eq_getD a]
  simp [List.range_succ, and_assoc]

theorem dottedQuad_eq (a : Addr) (i : ℕ) :
    dottedQuad a i = dots (((List.range 4).map fun k => a.bytes.getD (i + k) 0).map UInt8.toNat) := by
  unfold dottedQuad dots
  rw [List.map_map, List.map_map]
  rfl

theorem drop_eq_getD (a : Addr) : a.bytes.drop 12 = (List.range 4).map fun k => a.bytes.getD (12 + k) 0 := by
  rw [bytes_eq_getD a]
  rfl

theorem exists_quad (a : Addr) : ∃ w x y z, a.bytes.drop 12 = [w, x, y, z] := by
  have hlen : (a.bytes.drop 12).length = 4 := by rw [List.length_drop, a.length_eq]
  match a.bytes.drop 12, hlen with
  | [w, x, y, z], _ => exact ⟨w, x, y, z, rfl⟩

theorem octets_lt (bs : List UInt8) : ∀ n ∈ bs.map UInt8.toNat, n < 256 := by
  intro n hn
  obtain ⟨b, -, rfl⟩ := List.mem_map.mp hn
  exact b.toNat_lt

theorem groupsFrom_add (groups : ℕ → UInt16) (i m n : ℕ) :
    groupsFrom groups i (m + n) = groupsFrom groups i m ++ groupsFrom groups (i + m) n := by
  induction m generalizing i with
  | zero =>
      rw [Nat.zero_add]
      rfl
  | succ m ih =>
      rw [Nat.add_right_comm m 1 n, groupsFrom_succ, ih, groupsFrom_succ, Nat.add_right_comm i 1 m]
      rfl

theorem ZeroRun.groupsFrom {groups : ℕ → UInt16} {s n : ℕ} (h : ZeroRun groups s n) :
    groupsFrom groups s n = List.replicate n 0 := by
  apply List.ext_getElem
  · rw [length_groupsFrom, List.length_replicate]
  · intro k hk _
    rw [length_groupsFrom] at hk
    simp [Pcapstat.groupsFrom, h.2 k hk]

/-- The groups before a run, the run and the groups behind it. -/
theorem ZeroRun.split {groups : ℕ → UInt16} {s n : ℕ} (h : ZeroRun groups s n) :
    Pcapstat.groupsFrom groups 0 s ++ List.replicate n 0 ++ Pcapstat.groupsFrom groups (s + n) (8 - (s + n)) =
      Pcapstat.groupsFrom groups 0 8 := by
  have hend : s + n ≤ 8 := h.1
  have hs : 8 = s + (n + (8 - (s + n))) := by omega
  conv_rhs => rw [hs, groupsFrom_add, Nat.zero_add, groupsFrom_add]
  rw [h.groupsFrom, List.append_assoc]

/-- What is written, in a buffer of any size. -/
theorem formatIpv6_text (a : Addr) : ∃ text, Rfc5952 a text ∧ ∀ len, formatIpv6 a len = cut len text := by
  by_cases hmapped : isV4Mapped a = true
  · refine ⟨_, .mapped ((isV4Mapped_iff a).mp hmapped), fun len => ?_⟩
    unfold formatIpv6
    rw [if_pos hmapped, dottedQuad_eq, ← drop_eq_getD]
  · have hno : ¬ V4Mapped a := fun h => hmapped ((isV4Mapped_iff a).mpr h)
    obtain ⟨hnone, hsome⟩ := longestRun_spec (group a)
    unfold formatIpv6
    simp only [if_neg hmapped]
    generalize longestRun (group a) 8 0 none 0 = found at hnone hsome
    obtain ⟨start, len⟩ := found
    cases start with
    | none =>
        refine ⟨_, .plain hno fun s n hrun => ?_, fun _ => ?_⟩
        · rw [hnone rfl s n hrun]
          decide
        · rw [ite_self, putGroups_all]
    | some s =>
        have hbest : LongestRun (group a) s len := hsome s rfl
        by_cases hshort : len < 2
        · -- a single zero group is written out
          refine ⟨_, .plain hno fun t m hrun => ?_, fun _ => ?_⟩
          · exact (hbest.longest t m hrun).trans_lt hshort
          · rw [if_pos hshort, putGroups_all]
        · have hlen : 2 ≤ len := by omega
          refine ⟨_, .gap hno hbest hlen, fun _ => ?_⟩
          rw [if_neg hshort, putGroups_gap hlen hbest.run.1]

/-! ### Properties of the text -/

theorem Rfc5952.length_le (h : Rfc5952 a text) : text.length ≤ 39 := by
  cases h with
  | mapped h =>
      have hfour : ((a.bytes.drop 12).map UInt8.toNat).length = 4 := by
        rw [List.length_map, List.length_drop, a.length_eq]
      have hdots := length_dots (octets_lt (a.bytes.drop 12)) hfour
      rw [List.length_append]
      show 7 + _ ≤ 39
      omega
  | @gap s n h hrun hn =>
      have hend : s + n ≤ 8 := hrun.run.1
      have hhi := length_colons (groupsFrom_lt (group a) 0 s)
      have hlo := length_colons (groupsFrom_lt (group a) (s + n) (8 - (s + n)))
      rw [length_groupsFrom] at hhi hlo
      rw [List.length_append, List.length_cons, List.length_cons]
      omega
  | plain h hno =>
      have hall := length_colons (groupsFrom_lt (group a) 0 8)
      rw [length_groupsFrom] at hall
      exact hall

/-- **The grammar reads the text back as the address.** -/
theorem Rfc5952.read_eq (h : Rfc5952 a text) : Ipv6Text.read text = some a.bytes := by
  unfold Ipv6Text.read
  cases h with
  | mapped h =>
      obtain ⟨w, x, y, z, hquad⟩ := exists_quad a
      have hbytes : a.bytes = List.replicate 10 0 ++ [0xff, 0xff] ++ [w, x, y, z] := by
        rw [← h, ← hquad, List.take_append_drop]
      have htext : "::ffff:".toList ++ dots ((a.bytes.drop 12).map UInt8.toNat) =
          colons [] ++ ':' :: ':' :: colonsQuad [65535] ((a.bytes.drop 12).map UInt8.toNat) := by
        rw [colonsQuad_singleton]
        rfl
      have hgroups := @readGroups_quad [] [65535] ((a.bytes.drop 12).map UInt8.toNat)
        (fun _ h => nomatch h) (fun g hg => by rw [List.mem_singleton.mp hg]; decide) (octets_lt _)
        (by rw [List.length_map, List.length_drop, a.length_eq]) (by decide)
      have hfront : (List.replicate 5 0 ++ [65535]).flatMap groupBytes = List.replicate 10 0 ++ [0xff, 0xff] := by
        decide
      have hback : [256 * w.toNat + x.toNat, 256 * y.toNat + z.toNat].flatMap groupBytes = [w, x, y, z] := by
        rw [List.flatMap_cons, List.flatMap_cons, groupBytes_pair, groupBytes_pair]
        rfl
      rw [htext, hgroups, Option.map_some, hquad, hbytes, ← hfront]
      show some ((List.replicate 5 0 ++ [65535] ++ [256 * w.toNat + x.toNat, 256 * y.toNat + z.toNat]).flatMap
        groupBytes) = _
      rw [List.flatMap_append, hback]
  | @gap s n h hrun hn =>
      have hend : s + n ≤ 8 := hrun.run.1
      have hgroups := readGroups_gap (groupsFrom_lt (group a) 0 s) (groupsFrom_lt (group a) (s + n) (8 - (s + n)))
        (by
          rw [length_groupsFrom, length_groupsFrom]
          omega)
      rw [length_groupsFrom, length_groupsFrom, show 8 - (s + (8 - (s + n))) = n by omega, hrun.run.split] at hgroups
      rw [hgroups, Option.map_some, groupBytes_groups]
  | plain h hno =>
      rw [readGroups_colons (groupsFrom_lt (group a) 0 8) (length_groupsFrom _ 0 8), Option.map_some,
        groupBytes_groups]

theorem Rfc5952.gap_iff (h : Rfc5952 a text) :
    [':', ':'] <:+: text ↔ V4Mapped a ∨ ∃ s n, 2 ≤ n ∧ ZeroRun (group a) s n := by
  cases h with
  | mapped h => exact iff_of_true ⟨[], _, rfl⟩ (.inl h)
  | @gap s n h hrun hn =>
      exact iff_of_true ⟨_, _, List.append_assoc _ [':', ':'] _⟩ (.inr ⟨s, n, hn, hrun.run⟩)
  | plain h hno =>
      have hcut : cutAtGap (colons (groupsFrom (group a) 0 8)) = none := cutAtGap_colons_eq_none
      apply iff_of_false (cutAtGap_eq_none_iff.mp hcut)
      rintro (hmapped | ⟨s, n, hn, hrun⟩)
      · exact h hmapped
      · exact absurd (hno s n hrun) (by omega)

theorem Rfc5952.quad_iff (h : Rfc5952 a text) : '.' ∈ text ↔ V4Mapped a := by
  cases h with
  | mapped h =>
      refine iff_of_true (List.mem_append_right _ ?_) h
      obtain ⟨w, x, y, z, hquad⟩ := exists_quad a
      rw [hquad]
      exact dot_mem_dots rfl
  | gap h hrun hn =>
      refine iff_of_false ?_ h
      intro hdot
      rcases List.mem_append.mp hdot with hdot | hdot
      · exact dot_not_mem_colons hdot
      · have hbehind := List.mem_of_ne_of_mem (by decide) (List.mem_of_ne_of_mem (by decide) hdot)
        exact dot_not_mem_colons hbehind
  | plain h hno => exact iff_of_false dot_not_mem_colons h

theorem Rfc5952.not_mem (h : Rfc5952 a text) {c : Char} (hdigit : Numeral.digitValue c = none) (hcolon : c ≠ ':')
    (hdot : c ≠ '.') : c ∉ text := by
  cases h with
  | mapped h =>
      have hfront : c ∉ "::ffff:".toList := by
        have hf : c ≠ 'f' := by
          rintro rfl
          exact absurd hdigit (by decide)
        simp [hcolon, hf]
      exact fun hmem => (List.mem_append.mp hmem).elim hfront (not_mem_dots hdigit hdot)
  | gap h hrun hn =>
      intro hmem
      rcases List.mem_append.mp hmem with hmem | hmem
      · exact not_mem_colons hdigit hcolon hmem
      · have hbehind := List.mem_of_ne_of_mem hcolon (List.mem_of_ne_of_mem hcolon hmem)
        exact not_mem_colons hdigit hcolon hbehind
  | plain h hno => exact not_mem_colons hdigit hcolon

/-- What stands between two colons: nothing, a group, or the dotted quad. -/
theorem Rfc5952.pieces (h : Rfc5952 a text) {w : Text} (hw : w ∈ text.splitOn ':') :
    w = [] ∨ (Numeral.Plain 16 w ∧ w.length ≤ 4) ∨
      (V4Mapped a ∧ w = dots ((a.bytes.drop 12).map UInt8.toNat)) := by
  have hgroup : ∀ {gs : List ℕ}, (∀ g ∈ gs, g < 65536) → w ∈ (colons gs).splitOn ':' →
      w = [] ∨ (Numeral.Plain 16 w ∧ w.length ≤ 4) := by
    intro gs hlt hmem
    rcases mem_splitOn_colons hmem with hnil | ⟨g, hg, rfl⟩
    · exact .inl hnil
    · exact .inr ⟨Numeral.plain_toDigits (by decide) (by decide), length_group_le (hlt g hg)⟩
  cases h with
  | mapped h =>
      have hsplit : ("::ffff:".toList ++ dots ((a.bytes.drop 12).map UInt8.toNat)).splitOn ':' =
          [[], [], "ffff".toList, dots ((a.bytes.drop 12).map UInt8.toNat)] := by
        have hrest := @splitOn_colonsQuad [65535] ((a.bytes.drop 12).map UInt8.toNat)
        rw [colonsQuad_singleton] at hrest
        show (([] : Text) ++ ':' :: ([] ++ ':' :: (Nat.toDigits 16 65535 ++ ':' :: dots _))).splitOn ':' = _
        rw [List.splitOn_append_cons_self, List.splitOn_append_cons_self, hrest]
        rfl
      rw [hsplit] at hw
      simp only [List.mem_cons, List.not_mem_nil, or_false] at hw
      rcases hw with hw | hw | hw | hw
      · exact .inl hw
      · exact .inl hw
      · refine .inr (.inl ?_)
        rw [hw]
        exact ⟨Numeral.plain_toDigits (n := 65535) (by decide) (by decide), by decide⟩
      · exact .inr (.inr ⟨h, hw⟩)
  | @gap s n h hrun hn =>
      rcases mem_splitOn_gap hw with hw | hw | hw
      · rcases hgroup (groupsFrom_lt _ _ _) hw with hw | hw
        · exact .inl hw
        · exact .inr (.inl hw)
      · exact .inl hw
      · rcases hgroup (groupsFrom_lt _ _ _) hw with hw | hw
        · exact .inl hw
        · exact .inr (.inl hw)
  | plain h hno =>
      rcases hgroup (groupsFrom_lt _ _ _) hw with hw | hw
      · exact .inl hw
      · exact .inr (.inl hw)

theorem LongestRun.unique {groups : ℕ → UInt16} {s n s' n' : ℕ} (h : LongestRun groups s n)
    (h' : LongestRun groups s' n') : s = s' ∧ n = n' := by
  have hn : n = n' := le_antisymm (h'.longest s n h.run) (h.longest s' n' h'.run)
  subst hn
  exact ⟨le_antisymm (h.first s' h'.run) (h'.first s h.run), rfl⟩

/-- RFC 5952 asks for one text. -/
theorem Rfc5952.unique {text' : Text} (h : Rfc5952 a text) (h' : Rfc5952 a text') : text = text' := by
  cases h with
  | mapped hmapped =>
      cases h' with
      | mapped _ => rfl
      | gap hno _ _ => exact absurd hmapped hno
      | plain hno _ => exact absurd hmapped hno
  | gap hno hrun hn =>
      cases h' with
      | mapped hmapped => exact absurd hmapped hno
      | gap _ hrun' _ =>
          obtain ⟨rfl, rfl⟩ := hrun.unique hrun'
          rfl
      | plain _ hshort => exact absurd (hshort _ _ hrun.run) (Nat.not_lt.mpr hn)
  | plain hno hshort =>
      cases h' with
      | mapped hmapped => exact absurd hmapped hno
      | gap _ hrun hn => exact absurd (hshort _ _ hrun.run) (Nat.not_lt.mpr hn)
      | plain _ _ => rfl

/-- **The text of an IPv6 address.** -/
structure FullText (a : Addr) (text : Text) : Prop where
  rfc : Rfc5952 a text
  length : text.length ≤ 39
  read : Ipv6Text.read text = some a.bytes
  pieces : ∀ w ∈ text.splitOn ':', w = [] ∨ (Numeral.Plain 16 w ∧ w.length ≤ 4) ∨
    (V4Mapped a ∧ w = dots ((a.bytes.drop 12).map UInt8.toNat))
  gap : [':', ':'] <:+: text ↔ V4Mapped a ∨ ∃ s n, 2 ≤ n ∧ ZeroRun (group a) s n
  quad : '.' ∈ text ↔ V4Mapped a

theorem addrFormat_fits (a : Addr) :
    ∃ text, FullText a text ∧ ∀ len, 39 < len → addrFormat 6 a len = text := by
  obtain ⟨text, hrfc, hcut⟩ := formatIpv6_text a
  refine ⟨text, ⟨hrfc, hrfc.length_le, hrfc.read_eq, fun w hw => hrfc.pieces hw, hrfc.gap_iff,
    hrfc.quad_iff⟩, ?_⟩
  intro len hlen
  have hroom : text.length ≤ len - 1 := by
    have hle : text.length ≤ 39 := hrfc.length_le
    omega
  unfold addrFormat
  rw [if_neg (by decide), if_pos rfl, hcut len, cut, List.take_of_length_le hroom]

/-- **`addr_format` writes the whole text of RFC 5952**: it is not cut off, the grammar of the text
form reads it back as the address, and another address has another text. -/
theorem addrFormat_ipv6 (a : Addr) :
    FullText a (addrFormat 6 a addrStrLen) ∧
      (∀ len, 39 < len → addrFormat 6 a len = addrFormat 6 a addrStrLen) ∧
        ∀ b, addrFormat 6 b addrStrLen = addrFormat 6 a addrStrLen → b = a := by
  obtain ⟨text, hfull, hfits⟩ := addrFormat_fits a
  have htext : addrFormat 6 a addrStrLen = text := hfits addrStrLen (by decide)
  rw [htext]
  refine ⟨hfull, hfits, fun b hb => ?_⟩
  obtain ⟨text', hfull', hfits'⟩ := addrFormat_fits b
  have hsame : text' = text := (hfits' addrStrLen (by decide)).symm.trans hb
  have hbytes : some b.bytes = some a.bytes := by rw [← hfull'.read, hsame, hfull.read]
  exact Addr.ext_bytes (Option.some.inj hbytes)

end text

end Pcapstat
