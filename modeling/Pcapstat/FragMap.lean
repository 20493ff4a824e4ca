import Pcapstat.DirectMapped
import Pcapstat.Run

/-! # The fragment cache as a lossy map

The cache is a direct-mapped store (`DirectMapped.Scheme`): first fragments with a transport header
write the slot of their key.  So a later fragment is given the ports of the last first fragment
with its key, unless another key has written the slot in between. -/

namespace Pcapstat

open DirectMapped

/-! ### Keys -/

/-- What the fragments of one datagram share. -/
structure FragKey where
  ipVersion : UInt8
  proto : UInt8
  id : UInt32
  src : Addr
  dst : Addr
deriving DecidableEq, Repr

def fragKey (pi : PacketInfo) : FragKey := ⟨pi.ipVersion, pi.ipProto, pi.fragId, pi.srcAddr, pi.dstAddr⟩

/-- A cleanly decoded first fragment with a transport header. -/
def recordsPorts (pi : PacketInfo) : Bool :=
  pi.status = .ok && pi.hasL3 && pi.frag = .first && pi.hasL4

/-- A cleanly decoded later fragment. -/
def asksPorts (pi : PacketInfo) : Bool := pi.status = .ok && pi.hasL3 && pi.frag = .later

section keys

variable {p q : PacketInfo}

theorem slotFor_congr (w : ℕ) (h : fragKey p = fragKey q) : slotFor w p = slotFor w q := by
  simp only [fragKey, FragKey.mk.injEq] at h
  obtain ⟨hver, hproto, hid, hsrc, hdst⟩ := h
  simp only [slotFor, hver, hproto, hid, hsrc, hdst]

theorem sameDatagram_ofFirst (p q : PacketInfo) :
    sameDatagram (.ofFirst p) q = true ↔ fragKey p = fragKey q := by
  simp only [sameDatagram, Bool.and_eq_true, decide_eq_true_eq, memcmp_addr, fragKey, FragKey.mk.injEq]
  constructor
  · rintro ⟨⟨⟨⟨⟨-, hver⟩, hproto⟩, hid⟩, hsrc⟩, hdst⟩
    exact ⟨hver, hproto, hid, hsrc, hdst⟩
  · rintro ⟨hver, hproto, hid, hsrc, hdst⟩
    exact ⟨⟨⟨⟨⟨rfl, hver⟩, hproto⟩, hid⟩, hsrc⟩, hdst⟩

theorem sameDatagram_unused (q : PacketInfo) : sameDatagram {} q = false := by
  unfold sameDatagram
  rfl

end keys

/-! ### One call -/

/-- The packet with the ports of an entry. -/
def PacketInfo.withPorts (pi : PacketInfo) (src dst : UInt16) : PacketInfo :=
  { pi with srcPort := src, dstPort := dst }

/-- The cache as a direct-mapped store. -/
def fragScheme (w : ℕ) : Scheme PacketInfo FragEntry ℕ := ⟨recordsPorts, slotFor w, .ofFirst⟩

/-- The ports a packet finds in the cache `m`. -/
def foundPorts (w : ℕ) (m : ℕ → FragEntry) (q : PacketInfo) : Bool :=
  asksPorts q && sameDatagram (m (slotFor w q)) q

theorem fragCacheApply_some (w : ℕ) (m : ℕ → FragEntry) (q : PacketInfo) :
    fragCacheApply w ⟨some m⟩ q = (⟨some ((fragScheme w).store m q)⟩,
      if foundPorts w m q then q.withPorts (m (slotFor w q)).srcPort (m (slotFor w q)).dstPort else q,
      foundPorts w m q) := by
  unfold fragCacheApply Scheme.store
  dsimp only
  by_cases hbad : (q.status ≠ .ok || !q.hasL3) = true
  · have hclean : (decide (q.status = .ok) && q.hasL3) = false := by
      rw [← Bool.not_eq_true, Bool.and_eq_true, decide_eq_true_eq]
      rintro ⟨hst, hl3⟩
      rw [hst, hl3] at hbad
      exact absurd hbad (by decide)
    have hrec : recordsPorts q = false := by rw [recordsPorts, hclean, Bool.false_and, Bool.false_and]
    have hask : asksPorts q = false := by rw [asksPorts, hclean, Bool.false_and]
    have hfound : foundPorts w m q = false := by rw [foundPorts, hask, Bool.false_and]
    rw [if_pos hbad, hfound]
    simp only [fragScheme, hrec, Bool.false_eq_true, if_false]
  have hclean : (decide (q.status = .ok) && q.hasL3) = true := by simpa using hbad
  rw [if_neg hbad]
  have hrec : recordsPorts q = (decide (q.frag = .first) && q.hasL4) := by
    rw [recordsPorts, hclean, Bool.true_and]
  have hask : asksPorts q = decide (q.frag = .later) := by rw [asksPorts, hclean, Bool.true_and]
  cases hfirst : recordsPorts q with
  | true =>
      have hfirst' := hrec.symm.trans hfirst
      have hlater : q.frag ≠ .later := by
        rw [Bool.and_eq_true, decide_eq_true_eq] at hfirst'
        rw [hfirst'.1]
        decide
      have hfound : foundPorts w m q = false := by
        rw [foundPorts, hask, decide_eq_false hlater, Bool.false_and]
      rw [if_pos hfirst', hfound]
      simp only [fragScheme, hfirst, if_true, Bool.false_eq_true, if_false]
  | false =>
      have hfirst' := hrec.symm.trans hfirst
      rw [if_neg (Bool.not_eq_true _ ▸ hfirst')]
      simp only [fragScheme, hfirst, Bool.false_eq_true, if_false, foundPorts, hask]
      by_cases hlater : q.frag = .later
      · rw [if_pos hlater, decide_eq_true hlater, Bool.true_and]
        cases sameDatagram (m (slotFor w q)) q with
        | true => rfl
        | false => rfl
      · rw [if_neg hlater, decide_eq_false hlater, Bool.false_and]
        rfl

/-! ### Histories -/

/-- The cache after the packets of a history. -/
def fragCacheAll (w : ℕ) (c : FragCache) (ps : List PacketInfo) : FragCache :=
  ps.foldl (fun c p => (fragCacheApply w c p).1) c

/-- A cache that was allocated is the store its packets have filled. -/
theorem fragCacheAll_some (w : ℕ) (ps : List PacketInfo) (m : ℕ → FragEntry) :
    fragCacheAll w ⟨some m⟩ ps = ⟨some ((fragScheme w).run m ps)⟩ := by
  induction ps generalizing m with
  | nil => rfl
  | cons p ps ih =>
      rw [fragCacheAll, List.foldl_cons, fragCacheApply_some, ← fragCacheAll, ih]
      rfl

/-- `p` is the last packet of `ps` that recorded ports for the key of `q`; `post` came after it. -/
structure LastFirst (ps : List PacketInfo) (q p : PacketInfo) (post : List PacketInfo) : Prop where
  split : ∃ pre, ps = pre ++ p :: post
  records : recordsPorts p = true
  key : fragKey p = fragKey q
  last : ∀ p' ∈ post, recordsPorts p' = true → fragKey p' ≠ fragKey q

/-- Another key has written the slot of `q`. -/
def Overwritten (w : ℕ) (q : PacketInfo) (post : List PacketInfo) : Prop :=
  ∃ p ∈ post, recordsPorts p = true ∧ fragKey p ≠ fragKey q ∧ slotFor w p = slotFor w q

section history

variable {w : ℕ} {ps post post' : List PacketInfo} {p p' q : PacketInfo}

theorem LastFirst.unique (h : LastFirst ps q p post) (h' : LastFirst ps q p' post') :
    p = p' ∧ post = post' := by
  obtain ⟨pre, hsplit⟩ := h.split
  obtain ⟨pre', hsplit'⟩ := h'.split
  apply last_unique (P := fun r => recordsPorts r = true ∧ fragKey r = fragKey q)
    (hsplit.symm.trans hsplit') ⟨h.records, h.key⟩ ⟨h'.records, h'.key⟩
  · rintro r hr ⟨hrec, hkey⟩
    exact h.last r hr hrec hkey
  · rintro r hr ⟨hrec, hkey⟩
    exact h'.last r hr hrec hkey

/-- The last first fragment with the key is the last writer of the slot, unless it was overwritten. -/
theorem LastFirst.lastWriter (h : LastFirst ps q p post) (hno : ¬ Overwritten w q post) :
    (fragScheme w).LastWriter (slotFor w q) ps p post where
  split := h.split
  writes := h.records
  slot := slotFor_congr w h.key
  untouched r hr hrec hslot := hno ⟨r, hr, hrec, h.last r hr hrec, hslot⟩

theorem lastFirst_of_lastWriter (h : (fragScheme w).LastWriter (slotFor w q) ps p post)
    (hkey : fragKey p = fragKey q) : LastFirst ps q p post ∧ ¬ Overwritten w q post := by
  refine ⟨⟨h.split, h.writes, hkey, ?_⟩, ?_⟩
  · intro r hr hrec hk
    exact h.untouched r hr hrec (slotFor_congr w hk)
  · rintro ⟨r, hr, hrec, -, hslot⟩
    exact h.untouched r hr hrec hslot

theorem foundPorts_entry (h : LastFirst ps q p post) (hno : ¬ Overwritten w q post) :
    (fragScheme w).run (fun _ => {}) ps (slotFor w q) = .ofFirst p :=
  (h.lastWriter hno).run

/-- **What a packet finds in a cache that was empty at the start.** -/
theorem foundPorts_iff : foundPorts w ((fragScheme w).run (fun _ => {}) ps) q = true ↔
    asksPorts q = true ∧ ∃ p post, LastFirst ps q p post ∧ ¬ Overwritten w q post := by
  unfold foundPorts
  rw [Bool.and_eq_true]
  apply and_congr_right
  intro _
  constructor
  · intro hsame
    obtain ⟨p, post, hlast⟩ | hnone := (fragScheme w).exists_lastWriter (slotFor w q) ps
    · have hentry : (fragScheme w).run (fun _ => {}) ps (slotFor w q) = .ofFirst p := hlast.run
      rw [hentry, sameDatagram_ofFirst] at hsame
      exact ⟨p, post, lastFirst_of_lastWriter hlast hsame⟩
    · rw [Scheme.run_untouched hnone, sameDatagram_unused] at hsame
      exact absurd hsame Bool.false_ne_true
  · rintro ⟨p, post, hlast, hno⟩
    rw [foundPorts_entry hlast hno, sameDatagram_ofFirst]
    exact hlast.key

end history

/-! ### Frames behind a first fragment -/

/-- A frame as it is decoded, that the cache leaves alone. -/
def Frame.whole (f : Frame) : Seen := ⟨f.pi, false, f.caplen, f.wirelen, f.tsNs⟩

/-- The frame `g` to a cache that knows the first fragment `f` only. -/
def behindFirst (f g : Frame) : Seen :=
  if asksPorts g.pi = true ∧ fragKey f.pi = fragKey g.pi then
    ⟨g.pi.withPorts f.pi.srcPort f.pi.dstPort, true, g.caplen, g.wirelen, g.tsNs⟩
  else g.whole

section frames

variable {w : ℕ} {f g : Frame} {m : ℕ → FragEntry}

theorem seen_matched : (seen w ⟨some m⟩ f).matched = foundPorts w m f.pi := by
  rw [seen, fragCacheApply_some]

theorem seen_pi : (seen w ⟨some m⟩ f).pi =
    if foundPorts w m f.pi then
      f.pi.withPorts (m (slotFor w f.pi)).srcPort (m (slotFor w f.pi)).dstPort
    else f.pi := by
  rw [seen, fragCacheApply_some]

theorem seen_of_notFound (h : foundPorts w m f.pi = false) : seen w ⟨some m⟩ f = f.whole := by
  rw [seen, fragCacheApply_some, h]
  rfl

theorem seen_behindFirst (hf : recordsPorts f.pi = true) (g : Frame) :
    seen w ⟨some ((fragScheme w).run (fun _ => {}) [f.pi])⟩ g = behindFirst f g := by
  have hlast : fragKey f.pi = fragKey g.pi → LastFirst [f.pi] g.pi f.pi [] := fun hkey =>
    ⟨⟨[], rfl⟩, hf, hkey, fun p hp => absurd hp List.not_mem_nil⟩
  have hkept : ¬ Overwritten w g.pi [] := fun ⟨p, hp, _⟩ => absurd hp List.not_mem_nil
  have hfound : foundPorts w ((fragScheme w).run (fun _ => {}) [f.pi]) g.pi = true ↔
      asksPorts g.pi = true ∧ fragKey f.pi = fragKey g.pi := by
    rw [foundPorts_iff]
    apply and_congr_right
    intro _
    constructor
    · rintro ⟨p, post, h, -⟩
      obtain ⟨pre, hpre⟩ := h.split
      have hp : p ∈ [f.pi] := hpre ▸ List.mem_append_right pre List.mem_cons_self
      rw [← List.mem_singleton.mp hp]
      exact h.key
    · intro hkey
      exact ⟨f.pi, [], hlast hkey, hkept⟩
  unfold behindFirst
  split_ifs with hask
  · rw [seen, fragCacheApply_some, if_pos (hfound.mpr hask), hfound.mpr hask,
      foundPorts_entry (hlast hask.2) hkept]
    rfl
  · exact seen_of_notFound (Bool.not_eq_true _ ▸ mt hfound.mp hask)

theorem seenAll_of_noRecord : ∀ {pre : List Frame} (fs : List Frame), (∀ g ∈ pre, recordsPorts g.pi = false) →
    seenAll w ⟨some m⟩ (pre ++ fs) = pre.map (seen w ⟨some m⟩) ++ seenAll w ⟨some m⟩ fs
  | [], _, _ => rfl
  | g :: pre, fs, h => by
      have hstore : (fragScheme w).store m g.pi = m := by
        rw [Scheme.store]
        exact if_neg (Bool.not_eq_true _ ▸ h g List.mem_cons_self)
      rw [List.cons_append, seenAll, fragCacheApply_some, hstore,
        seenAll_of_noRecord fs fun g' hg' => h g' (List.mem_cons_of_mem _ hg')]
      rfl

theorem seen_of_empty (f : Frame) : seen w ⟨some fun _ => {}⟩ f = f.whole :=
  seen_of_notFound (by rw [foundPorts, sameDatagram_unused, Bool.and_false])

/-- A run that starts with the only first fragment that is recorded. -/
theorem seenAll_behindFirst {fs : List Frame} (hf : recordsPorts f.pi = true)
    (hfs : ∀ g ∈ fs, recordsPorts g.pi = false) :
    seenAll w ⟨some fun _ => {}⟩ (f :: fs) = f.whole :: fs.map (behindFirst f) := by
  rw [seenAll, seen_of_empty, fragCacheApply_some, ← List.append_nil fs, seenAll_of_noRecord [] hfs,
    List.append_nil, seenAll, List.append_nil]
  congr 1
  exact List.map_congr_left fun g _ => seen_behindFirst hf g

end frames

/-! ### The theorem -/

/-- **The fragment cache is a lossy map.**  A packet is given the ports of the last first fragment
with its key, unless the slot was overwritten; otherwise it stays as it is. -/
theorem fragCache_lossyMap (w : ℕ) (ps : List PacketInfo) (q : PacketInfo) :
    let r := fragCacheApply w (fragCacheAll w (fragCacheInit true).1 ps) q
    (r.2.2 = true ↔ (q.status = .ok ∧ q.hasL3 = true ∧ q.frag = .later) ∧
      ∃ p post, LastFirst ps q p post ∧ ¬ Overwritten w q post) ∧
    (∀ p post, LastFirst ps q p post → r.2.2 = true → r.2.1 = q.withPorts p.srcPort p.dstPort) ∧
    (r.2.2 = false → r.2.1 = q) ∧
    r.2.1 = q.withPorts r.2.1.srcPort r.2.1.dstPort := by
  intro r
  have hinit : (fragCacheInit true).1 = ⟨some fun _ => {}⟩ := rfl
  have hr := fragCacheApply_some w ((fragScheme w).run (fun _ => {}) ps) q
  rw [← fragCacheAll_some, ← hinit] at hr
  change r = _ at hr
  have hasks : asksPorts q = true ↔ q.status = .ok ∧ q.hasL3 = true ∧ q.frag = .later := by
    simp only [asksPorts, Bool.and_eq_true, decide_eq_true_eq, and_assoc]
  rw [hr]
  dsimp only
  refine ⟨?_, ?_, ?_, ?_⟩
  · rw [foundPorts_iff, hasks]
  · intro p post hlast hfound
    obtain ⟨-, p', post', hlast', hno⟩ := foundPorts_iff.mp hfound
    obtain ⟨rfl, rfl⟩ := hlast.unique hlast'
    rw [if_pos hfound, foundPorts_entry hlast hno]
    rfl
  · intro hfound
    rw [hfound, if_neg Bool.false_ne_true]
  · split_ifs
    · rfl
    · rfl

end Pcapstat
