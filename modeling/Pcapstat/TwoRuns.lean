import Pcapstat.Coherence
import Pcapstat.Counters
import Pcapstat.DecodeBounds
import Pcapstat.FragMap
import Pcapstat.Noninterference
import Pcapstat.PcapFormat

/-! # Two runs side by side

What two runs over related captures have in common.  One call of `analysis_account` is the cache,
the counters and the tables, each of which looks at some fields of the packet only; what it does not
look at may differ (`fragCacheApply_erase`, `statsAdd_noGtpu`, `bookTables`).

Results: a capture cut at the snapshot length gives the same tables (`analysisRun_headersOnly`), and
tunnel contents do not influence the rest (`analysisRun_noninterference`). -/

namespace Pcapstat

/-! ### One call -/

/-- The tables after a packet; the last component is false when memory ran out. -/
def bookTables (w : ℕ) (flows tunnels : FlowTable) (pi : PacketInfo) (wirelen : UInt32) (tsNs : UInt64)
    (ok : Grants) : Option (FlowTable × FlowTable × Bool) :=
  if pi.status ≠ .ok then some (flows, tunnels, true)
  else
    (flowTableAddPacket w flows pi wirelen tsNs ok.flows).bind fun r =>
      if !r.2 then some (r.1, tunnels, false)
      else if joinsTunnel pi then
        (flowTableAddTunnel w tunnels pi wirelen tsNs ok.tunnels).map fun q => (r.1, q.1, q.2)
      else some (r.1, tunnels, true)

theorem analysisAccount_eq (w : ℕ) (a : Analysis) (f : Frame) (ok : Grants) :
    analysisAccount w a f.pi f.caplen f.wirelen f.tsNs ok =
      (bookTables w a.flows a.tunnels (seen w a.frags f).pi f.wirelen f.tsNs ok).map fun r =>
        (⟨(seen w a.frags f).count a.stats, r.1, r.2.1, (fragCacheApply w a.frags f.pi).1⟩, r.2.2) := by
  rcases hq : fragCacheApply w a.frags f.pi with ⟨c, pi, matched⟩
  have hseen : seen w a.frags f = ⟨pi, matched, f.caplen, f.wirelen, f.tsNs⟩ := by rw [seen, hq]
  unfold analysisAccount
  rw [hq, hseen]
  unfold Seen.count bookTables
  dsimp only
  by_cases hst : pi.status = .ok
  swap
  · rw [if_pos hst, if_pos hst]
    rfl
  rw [if_neg (not_not.mpr hst), if_neg (not_not.mpr hst), Option.bind_eq_bind, Option.map_bind]
  congr 1
  funext r
  obtain ⟨t, added⟩ := r
  cases added with
  | false => rfl
  | true =>
      cases hjoins : joinsTunnel pi with
      | false => simp
      | true =>
          simp only [Function.comp_apply, Bool.not_true, Bool.false_eq_true, if_false, if_true,
            Option.map_map]
          cases flowTableAddTunnel w a.tunnels pi f.wirelen f.tsNs ok.tunnels with
          | none => rfl
          | some q => rfl

/-! ### Fields that do not matter -/

section erase

variable {w : ℕ} {p q : PacketInfo}

/-- An erasure that keeps what the cache looks at. -/
structure KeepsOuter (e : PacketInfo → PacketInfo) : Prop where
  outer : ∀ q, (e q).outer = q.outer
  ports : ∀ q src dst, e (q.withPorts src dst) = (e q).withPorts src dst

theorem keepsOuter_envelope : KeepsOuter PacketInfo.envelope := ⟨fun _ => rfl, fun _ _ _ => rfl⟩

theorem keepsOuter_noUser : KeepsOuter PacketInfo.noUser := ⟨fun _ => rfl, fun _ _ _ => rfl⟩

theorem fragCacheApply_erase {e : PacketInfo → PacketInfo} (he : KeepsOuter e) (c : FragCache)
    (h : e p = e q) : (fragCacheApply w c p).1 = (fragCacheApply w c q).1 ∧
      (fragCacheApply w c p).2.2 = (fragCacheApply w c q).2.2 ∧
      e (fragCacheApply w c p).2.1 = e (fragCacheApply w c q).2.1 := by
  have houter : p.outer = q.outer := by rw [← he.outer p, ← he.outer q, h]
  obtain ⟨slots⟩ := c
  cases slots with
  | none => exact ⟨rfl, rfl, h⟩
  | some m =>
      have hstore : (fragScheme w).store m p = (fragScheme w).store m q :=
        PacketInfo.eq_of_erase PacketInfo.outer ((fragScheme w).store m) (fun _ => rfl) houter
      have hfound : foundPorts w m p = foundPorts w m q :=
        PacketInfo.eq_of_erase PacketInfo.outer (foundPorts w m) (fun _ => rfl) houter
      have hslot : slotFor w p = slotFor w q :=
        PacketInfo.eq_of_erase PacketInfo.outer (slotFor w) (fun _ => rfl) houter
      rw [fragCacheApply_some, fragCacheApply_some, hstore, hfound, hslot]
      refine ⟨rfl, rfl, ?_⟩
      dsimp only
      split_ifs
      · rw [he.ports, he.ports, h]
      · exact h

/-- The counters that have nothing to do with GTP-U. -/
def Stats.noGtpu (s : Stats) : Stats := { s with gtpu := {} }

/-- The counters that have to do neither with GTP-U nor with the captured bytes. -/
def Stats.noCaptured (s : Stats) : Stats := { s.noGtpu with capturedBytes := 0 }

theorem statsAdd_noGtpu (s : Stats) (pi : PacketInfo) (caplen wirelen : UInt32) (ts : UInt64) :
    (statsAdd s pi caplen wirelen ts).noGtpu =
      (s.noGtpu.addFrame pi.outer caplen wirelen ts).addIp pi.outer := by
  rw [statsAdd, Stats.addIp_eq, Stats.addFrame_eq, Stats.addIp_eq, Stats.addFrame_eq]
  rfl

theorem statsAdd_noCaptured (s : Stats) (pi : PacketInfo) (caplen wirelen : UInt32) (ts : UInt64) :
    (statsAdd s pi caplen wirelen ts).noCaptured =
      (s.noCaptured.addFrame pi.outer 0 wirelen ts).addIp pi.outer := by
  rw [statsAdd, Stats.addIp_eq, Stats.addFrame_eq, Stats.addIp_eq, Stats.addFrame_eq]
  rfl

end erase

/-! ### Answers of the allocator -/

section allocator

variable {w : ℕ} {t t₁ t₂ : FlowTable} {key : FlowKey} {ok ok' : Bool}

/-- A call that was given its memory does not depend on what else the allocator would answer. -/
theorem grow_unique (h : grow w t ok = some (t₁, true)) (h' : grow w t ok' = some (t₂, true)) :
    t₁ = t₂ := by
  have hgrant : ∀ {ok t'}, grow w t ok = some (t', true) → ok = true := by
    intro ok t' h
    cases ok with
    | true => rfl
    | false =>
        have hno : ∀ n, calloc w n flowSize false = false := fun n => Bool.false_and _
        unfold grow at h
        split_ifs at h
        · simp at h
        · simp [hno] at h
  obtain rfl := hgrant h
  obtain rfl := hgrant h'
  rw [h, Option.some.injEq, Prod.mk.injEq] at h'
  exact h'.1

theorem flowTableFindOrInsert_unique {i j : ℕ} {ins ins' : Bool}
    (h : flowTableFindOrInsert w t key ok = some (t₁, some i, ins))
    (h' : flowTableFindOrInsert w t key ok' = some (t₂, some j, ins')) :
    (t₁, some i, ins) = (t₂, some j, ins') := by
  unfold flowTableFindOrInsert at h h'
  split_ifs at h h' with hcap hneeds
  · simp at h
  · obtain ⟨⟨g, b⟩, hgrow, h⟩ := Option.bind_eq_some_iff.mp h
    obtain ⟨⟨g', b'⟩, hgrow', h'⟩ := Option.bind_eq_some_iff.mp h'
    cases b with
    | false => simp at h
    | true =>
        cases b' with
        | false => simp at h'
        | true =>
            obtain rfl := grow_unique hgrow hgrow'
            exact Option.some.inj (h.symm.trans h')
  · exact Option.some.inj (h.symm.trans h')

theorem account_unique {rev : Bool} {fl : UInt8} {len : UInt32} {ts : UInt64}
    (h : account w t key rev fl len ts ok = some (t₁, true))
    (h' : account w t key rev fl len ts ok' = some (t₂, true)) : t₁ = t₂ := by
  unfold account at h h'
  obtain ⟨⟨g, i, ins⟩, hcall, h⟩ := Option.bind_eq_some_iff.mp h
  obtain ⟨⟨g', j, ins'⟩, hcall', h'⟩ := Option.bind_eq_some_iff.mp h'
  cases i with
  | none => simp at h
  | some i =>
      cases j with
      | none => simp at h'
      | some j =>
          have hsame := flowTableFindOrInsert_unique hcall hcall'
          simp only [Prod.mk.injEq, Option.some.injEq] at hsame
          obtain ⟨rfl, rfl, rfl⟩ := hsame
          exact congrArg Prod.fst (Option.some.inj (h.symm.trans h'))

end allocator

/-! ### Tunnel contents -/

/-- Two pipelines that differ in what they know of tunnels only. -/
structure SameOuter (a a' : Analysis) : Prop where
  flows : a'.flows = a.flows
  frags : a'.frags = a.frags
  stats : a'.stats.noGtpu = a.stats.noGtpu

/-- Two frames of which the decoder knows the same before it looks into the tunnel. -/
structure SameEnvelope (f f' : Frame) : Prop where
  envelope : f'.pi.envelope = f.pi.envelope
  caplen : f'.caplen = f.caplen
  wirelen : f'.wirelen = f.wirelen
  tsNs : f'.tsNs = f.tsNs

section outer

variable {w : ℕ} {a a' b b' : Analysis} {f f' : Frame} {ok ok' : Grants}

theorem Seen.count_noGtpu (s : Seen) (st : Stats) : (s.count st).noGtpu =
    (({ st.noGtpu with fragMatched := st.noGtpu.fragMatched + tick s.matched } : Stats).addFrame s.pi.outer
      s.caplen s.wirelen s.tsNs).addIp s.pi.outer := by
  rw [Seen.count, statsAdd_noGtpu]
  cases s.matched with
  | false => simp [Stats.noGtpu, tick]
  | true => rfl

theorem flows_of_bookTables {flows tunnels flows₁ tunnels₁ : FlowTable} {pi : PacketInfo} {len : UInt32}
    {ts : UInt64} (h : bookTables w flows tunnels pi len ts ok = some (flows₁, tunnels₁, true)) :
    pi.status ≠ .ok ∧ flows₁ = flows ∨ pi.status = .ok ∧
      flowTableAddPacket w flows pi len ts ok.flows = some (flows₁, true) := by
  unfold bookTables at h
  by_cases hst : pi.status ≠ .ok
  · rw [if_pos hst] at h
    simp only [Option.some.injEq, Prod.mk.injEq] at h
    exact .inl ⟨hst, h.1.symm⟩
  · rw [if_neg hst] at h
    obtain ⟨⟨t, added⟩, hadd, h⟩ := Option.bind_eq_some_iff.mp h
    refine .inr ⟨not_not.mp hst, ?_⟩
    cases added with
    | false => simp at h
    | true =>
        simp only [Bool.not_true, Bool.false_eq_true, if_false] at h
        split_ifs at h
        · obtain ⟨q, -, hq⟩ := Option.map_eq_some_iff.mp h
          simp only [Prod.mk.injEq] at hq
          rw [hadd, hq.1]
        · simp only [Option.some.injEq, Prod.mk.injEq] at h
          rw [hadd, h.1]

theorem flowTableAddPacket_unique {t t₁ t₂ : FlowTable} {p q : PacketInfo} {len : UInt32} {ts : UInt64}
    {ok ok' : Bool} (henv : q.envelope = p.envelope)
    (h : flowTableAddPacket w t p len ts ok = some (t₁, true))
    (h' : flowTableAddPacket w t q len ts ok' = some (t₂, true)) : t₂ = t₁ := by
  have hq : flowTableAddPacket w t q len ts ok' = flowTableAddPacket w t p len ts ok' :=
    PacketInfo.eq_of_erase PacketInfo.envelope (fun r => flowTableAddPacket w t r len ts ok')
      (fun _ => rfl) henv
  rw [hq] at h'
  unfold flowTableAddPacket at h h'
  cases hkey : flowKeyFromPacket p with
  | none =>
      rw [hkey] at h h'
      exact congrArg Prod.fst (Option.some.inj (h'.symm.trans h))
  | some kr =>
      rw [hkey] at h h'
      exact account_unique h' h

/-- **One call keeps what two pipelines have in common.** -/
theorem SameOuter.step (h : SameOuter a a') (hf : SameEnvelope f f')
    (hcall : analysisAccount w a f.pi f.caplen f.wirelen f.tsNs ok = some (b, true))
    (hcall' : analysisAccount w a' f'.pi f'.caplen f'.wirelen f'.tsNs ok' = some (b', true)) :
    SameOuter b b' := by
  rw [analysisAccount_eq] at hcall hcall'
  obtain ⟨⟨flows₁, tunnels₁, v⟩, hbook, hb⟩ := Option.map_eq_some_iff.mp hcall
  obtain ⟨⟨flows₂, tunnels₂, v'⟩, hbook', hb'⟩ := Option.map_eq_some_iff.mp hcall'
  simp only [Prod.mk.injEq] at hb hb'
  obtain ⟨rfl, rfl⟩ := hb
  obtain ⟨rfl, rfl⟩ := hb'
  obtain ⟨hcache, hmatched, henv⟩ := fragCacheApply_erase (w := w) keepsOuter_envelope a.frags hf.envelope
  have houter : (seen w a.frags f').pi.outer = (seen w a.frags f).pi.outer :=
    PacketInfo.eq_of_erase PacketInfo.envelope PacketInfo.outer (fun _ => rfl) henv
  have hst : (seen w a.frags f').pi.status = (seen w a.frags f).pi.status :=
    PacketInfo.eq_of_erase PacketInfo.outer PacketInfo.status (fun _ => rfl) houter
  refine ⟨?_, ?_, ?_⟩
  · rw [h.frags, h.flows, hf.wirelen, hf.tsNs] at hbook'
    obtain ⟨hbad, rfl⟩ | ⟨hgood, hadd⟩ := flows_of_bookTables hbook
    · obtain ⟨-, rfl⟩ | ⟨hgood', -⟩ := flows_of_bookTables hbook'
      · rfl
      · exact absurd (hst.symm.trans hgood') hbad
    · obtain ⟨hbad', -⟩ | ⟨-, hadd'⟩ := flows_of_bookTables hbook'
      · exact absurd (hst.trans hgood) hbad'
      · exact flowTableAddPacket_unique henv hadd hadd'
  · rw [h.frags]
    exact hcache
  · have hm : (seen w a.frags f').matched = (seen w a.frags f).matched := hmatched
    rw [h.frags, Seen.count_noGtpu, Seen.count_noGtpu, h.stats, houter, hm]
    simp only [seen, hf.caplen, hf.wirelen, hf.tsNs]

/-- A whole run keeps what two pipelines have in common. -/
theorem SameOuter.run {fs fs' : List Frame} {ok ok' : ℕ → Grants}
    (hfs : List.Forall₂ SameEnvelope fs fs') :
    ∀ {a a' : Analysis} {i j : ℕ}, SameOuter a a' → accountAll w ok i a fs = some (b, true) →
      accountAll w ok' j a' fs' = some (b', true) → SameOuter b b' := by
  induction hfs with
  | nil =>
      intro a a' i j h hrun hrun'
      rw [accountAll, Option.some.injEq, Prod.mk.injEq] at hrun hrun'
      rw [← hrun.1, ← hrun'.1]
      exact h
  | cons hf _ ih =>
      intro a a' i j h hrun hrun'
      rw [accountAll, Option.bind_eq_bind] at hrun hrun'
      obtain ⟨⟨a₁, v⟩, hcall, hrest⟩ := Option.bind_eq_some_iff.mp hrun
      obtain ⟨⟨a₂, v'⟩, hcall', hrest'⟩ := Option.bind_eq_some_iff.mp hrun'
      cases v with
      | false => simp at hrest
      | true =>
          cases v' with
          | false => simp at hrest'
          | true => exact ih (h.step hf hcall hcall') hrest hrest'

end outer

/-! ### Runs of `analysis_run` -/

/-- A run of `analysis_run` that did not run out of memory is a run over the delivered frames. -/
theorem accountAll_of_analysisLoop {w : ℕ} {ok : ℕ → Grants} {r r' : PcapReader} {recs : List PcapRecord}
    {st : PcapStatus} (h : Delivers r recs st r') {a b : Analysis} {q : PcapReader} {s : PcapStatus}
    {fuel i : ℕ} (hrun : analysisLoop w ok fuel i a r = some (b, q, s)) (hs : s ≠ .errNomem) :
    accountAll w ok i a (recs.map PcapRecord.frame) = some (b, true) := by
  induction h generalizing a fuel i with
  | @stop r r' st rec hnext hst =>
      cases fuel with
      | zero => simp [analysisLoop] at hrun
      | succ fuel =>
          rw [analysisLoop, hnext] at hrun
          simp only [ne_eq, hst, not_false_eq_true, if_true, Option.some.injEq, Prod.mk.injEq] at hrun
          rw [List.map_nil, accountAll, hrun.1]
  | @next r r₁ r' st rec recs hnext _ ih =>
      cases fuel with
      | zero => simp [analysisLoop] at hrun
      | succ fuel =>
          rw [analysisLoop, hnext] at hrun
          simp only [ne_eq, not_true, if_false, Option.bind_eq_bind] at hrun
          obtain ⟨⟨a₁, added⟩, hcall, hrest⟩ := Option.bind_eq_some_iff.mp hrun
          have hcall' : analysisAccount w a rec.frame.pi rec.frame.caplen rec.frame.wirelen rec.frame.tsNs
              (ok i) = some (a₁, added) := hcall
          rw [List.map_cons, accountAll, hcall', Option.bind_eq_bind, Option.bind_some]
          cases added with
          | false =>
              simp only [Bool.not_false, if_true, Option.some.injEq, Prod.mk.injEq] at hrest
              exact absurd hrest.2.2.symm hs
          | true => exact ih hrest

/-- A clean, unfragmented UDP datagram whose UDP header ends at `h`. -/
structure UdpEndsAt (f : Frame) (h : ℕ) : Prop where
  status : f.pi.status = .ok
  frag : f.pi.frag = .none
  header : ∃ p, TransportAt f.mem ipprotoUdp p ∧ h = p + udpHdrLen

/-- Two records that differ in the contents of a tunnel, if at all. -/
structure TunnelOnly (rec rec' : PcapRecord) : Prop where
  caplen : rec'.caplen = rec.caplen
  wirelen : rec'.wirelen = rec.wirelen
  tsNs : rec'.tsNs = rec.tsNs
  bytes : (∀ i < rec.caplen.toNat, rec'.frame.mem i = rec.frame.mem i) ∨
    ∃ h, UdpEndsAt rec.frame h ∧ ∀ i < h, rec'.frame.mem i = rec.frame.mem i

theorem exists_udpEndsAt {f : Frame} (hst : f.pi.status = .ok) (hfrag : f.pi.frag = .none)
    (hl4 : f.pi.hasL4 = true) (hudp : f.pi.ipProto = ipprotoUdp) : ∃ h, UdpEndsAt f h :=
  ⟨_, hst, hfrag, _, (outerRun_onUdp hst hfrag hl4 hudp).1, rfl⟩

theorem UdpEndsAt.envelope {f f' : Frame} {h : ℕ} (hf : UdpEndsAt f h) (hcap : f'.caplen = f.caplen)
    (hwire : f'.wirelen = f.wirelen) (hagree : ∀ i < h, f'.mem i = f.mem i) :
    f'.pi.envelope = f.pi.envelope := by
  obtain ⟨p, hp, rfl⟩ := hf.header
  rw [Frame.pi, Frame.pi, hcap, hwire]
  exact decodeFrame_envelope hp hagree

theorem TunnelOnly.sameEnvelope {rec rec' : PcapRecord} (h : TunnelOnly rec rec') :
    SameEnvelope rec.frame rec'.frame := by
  refine ⟨?_, h.caplen, h.wirelen, h.tsNs⟩
  obtain hsame | ⟨n, hn, hagree⟩ := h.bytes
  · have hpi : rec'.frame.pi = rec.frame.pi := by
      have hcap : rec'.frame.caplen = rec.frame.caplen := h.caplen
      have hwire : rec'.frame.wirelen = rec.frame.wirelen := h.wirelen
      rw [Frame.pi, Frame.pi, hcap, hwire]
      exact decodeFrame_congr hsame _
    rw [hpi]
  · exact hn.envelope h.caplen h.wirelen hagree

theorem TunnelOnly.frames {recs recs' : List PcapRecord} (h : List.Forall₂ TunnelOnly recs recs') :
    List.Forall₂ SameEnvelope (recs.map PcapRecord.frame) (recs'.map PcapRecord.frame) := by
  induction h with
  | nil => exact .nil
  | cons hrec _ ih => exact .cons hrec.sameEnvelope ih

/-- **Tunnel contents never influence the outer accounting.** -/
theorem analysisRun_noninterference :
    (∀ f : Frame, f.pi.status = .ok → f.pi.frag = .none → f.pi.hasL4 = true → f.pi.ipProto = ipprotoUdp →
      ∃ h, UdpEndsAt f h) ∧
    (∀ (f f' : Frame) (h : ℕ), UdpEndsAt f h → f'.caplen = f.caplen → f'.wirelen = f.wirelen →
      (∀ i < h, f'.mem i = f.mem i) →
      f'.pi.status = f.pi.status ∧ f'.pi.outer = f.pi.outer ∧ f'.pi.isGtpu = f.pi.isGtpu) ∧
    ∀ (w : ℕ) (ok ok' : ℕ → Grants) (a : Analysis) (recs recs' : List PcapRecord),
      List.Forall₂ TunnelOnly recs recs' →
      (∀ (n : ℕ) (b b' : Analysis),
        accountAll w ok 0 a ((recs.take n).map PcapRecord.frame) = some (b, true) →
        accountAll w ok' 0 a ((recs'.take n).map PcapRecord.frame) = some (b', true) → SameOuter b b') ∧
      ∀ (r r' e e' : PcapReader) (st st' : PcapStatus), Delivers r recs st e → Delivers r' recs' st' e' →
      ∀ (b b' : Analysis) (q q' : PcapReader) (s s' : PcapStatus),
      analysisRun w ok a r = some (b, q, s) → analysisRun w ok' a r' = some (b', q', s') →
      s ≠ .errNomem → s' ≠ .errNomem → SameOuter b b' := by
  refine ⟨?_, ?_, ?_⟩
  · intro f hst hfrag hl4 hudp
    exact exists_udpEndsAt hst hfrag hl4 hudp
  · intro f f' h hf hcap hwire hagree
    have henv := hf.envelope hcap hwire hagree
    exact ⟨PacketInfo.eq_of_erase PacketInfo.envelope PacketInfo.status (fun _ => rfl) henv,
      PacketInfo.eq_of_erase PacketInfo.envelope PacketInfo.outer (fun _ => rfl) henv,
      PacketInfo.eq_of_erase PacketInfo.envelope PacketInfo.isGtpu (fun _ => rfl) henv⟩
  · intro w ok ok' a recs recs' hrecs
    have hstart : SameOuter a a := ⟨rfl, rfl, rfl⟩
    refine ⟨?_, ?_⟩
    · intro n b b' hrun hrun'
      exact SameOuter.run (TunnelOnly.frames (List.forall₂_take n hrecs)) hstart hrun hrun'
    · intro r r' e e' st st' hdel hdel' b b' q q' s s' hrun hrun' hs hs'
      exact SameOuter.run (TunnelOnly.frames hrecs) hstart (accountAll_of_analysisLoop hdel hrun hs)
        (accountAll_of_analysisLoop hdel' hrun' hs')

theorem datagram_fits (payload : List UInt8) (n : ℕ) :
    (gtpuDatagram ++ (payload.take 28).take n).length ≤ pcapMaxCaplen := by
  have hlen : (payload.take 28).length ≤ 28 := List.length_take_le _ _
  have hlen' : ((payload.take 28).take n).length ≤ (payload.take 28).length := List.length_take_le' _ _
  rw [List.length_append, show gtpuDatagram.length = 42 from rfl, pcapMaxCaplen]
  omega

/-- A capture of one datagram with the first `n` bytes of `payload`. -/
def datagramCapture (payload : List UInt8) (n : ℕ) : PcapReader :=
  (pcapOpenMem (pcapFile false false 65535
    [⟨5, 0, 70, gtpuDatagram ++ (payload.take 28).take n, datagram_fits payload n⟩])).1

theorem transportAt_gtpuDatagram {m : SpanWalk.Mem} (h : ∀ k < 42, m k = gtpuDatagram.getD k 0) :
    TransportAt m ipprotoUdp 34 := by
  have hproto : m (14 + 9) = ipprotoUdp := h 23 (by decide)
  have hlen : 14 + (m 14 &&& 0x0F).toNat * 4 = 34 := by
    rw [h 14 (by decide)]
    rfl
  have htype : be16 m 12 = ethertypeIpv4 := by
    rw [be16, h 12 (by decide), h 13 (by decide)]
    rfl
  have hat : TransportAt m (m (14 + 9)) (14 + (m 14 &&& 0x0F).toNat * 4) := by
    refine .ipv4 (.type ?_) htype
    rw [htype]
    rfl
  rwa [hproto, hlen] at hat

theorem delivers_one {r : PcapReader} (h : (pcapNext r).2.1 = .ok ∧ (pcapNext (pcapNext r).1).2.1 = .eof) :
    Delivers r [(pcapNext r).2.2] .eof (pcapNext (pcapNext r).1).1 := by
  have hstop : pcapNext (pcapNext r).1 =
      ((pcapNext (pcapNext r).1).1, .eof, (pcapNext (pcapNext r).1).2.2) := by
    rw [← h.2]
  have hnext : pcapNext r = ((pcapNext r).1, .ok, (pcapNext r).2.2) := by
    rw [← h.1]
  exact .next hnext (.stop hstop PcapStatus.noConfusion)

/-- The record of a capture. -/
def datagramRecord (payload : List UInt8) (n : ℕ) : PcapRecord := (pcapNext (datagramCapture payload n)).2.2

theorem analysisRun_noninterference_gpdu :
    ∃ a b b' q q' s s', analysisInit 64 true true true = some (some a) ∧
      analysisRun 64 (fun _ => ⟨true, true⟩) a (datagramCapture gpduMessage 28) = some (b, q, s) ∧
      analysisRun 64 (fun _ => ⟨true, true⟩) a (datagramCapture (List.replicate 28 0xFF) 28) =
        some (b', q', s') ∧ SameOuter b b' := by
  obtain ⟨a, hinit⟩ := exists_init
  have hends := fun payload => analysisRun_ends (fun _ => ⟨true, true⟩) (datagramCapture payload 28)
    (fun a => a.flows.count) .eof 1 hinit
  obtain ⟨b, q, hrun, -⟩ := hends gpduMessage (by decide +kernel)
  obtain ⟨b', q', hrun', -⟩ := hends (List.replicate 28 0xFF) (by decide +kernel)
  have hdel := @delivers_one (datagramCapture gpduMessage 28) (by decide +kernel)
  have hdel' := @delivers_one (datagramCapture (List.replicate 28 0xFF) 28) (by decide +kernel)
  have hat := @transportAt_gtpuDatagram (datagramRecord gpduMessage 28).frame.mem (by decide +kernel)
  have hdiff : TunnelOnly (datagramRecord gpduMessage 28) (datagramRecord (List.replicate 28 0xFF) 28) :=
    ⟨by decide +kernel, by decide +kernel, by decide +kernel,
      .inr ⟨42, ⟨by decide +kernel, by decide +kernel, 34, hat, rfl⟩, by decide +kernel⟩⟩
  have hsame := (analysisRun_noninterference.2.2 64 _ _ a _ _ (.cons hdiff .nil)).2 _ _ _ _ _ _ hdel hdel'
    _ _ _ _ _ _ hrun hrun' PcapStatus.noConfusion PcapStatus.noConfusion
  exact ⟨a, b, b', q, q', _, _, hinit, hrun, hrun', hsame⟩

/-! ### A table without room -/

/-- A capture of these records, read from a stream. -/
def capture (raws : List RawRecord) : PcapReader :=
  (pcapOpenStream (some { rest := pcapFile false false 65535 raws }) true).1

theorem delivers_capture (raws : List RawRecord) :
    ∃ recs e, Delivers (capture raws) recs .eof e ∧ List.Forall₂ (Reads false) recs raws :=
  (Opens.delivers (.stream : Opens (pcapFile false false 65535 raws) _ _)).2

theorem gpduDatagram_fits (src dst : UInt8) : (datagramBetween src dst ++ gpduMessage).length ≤ pcapMaxCaplen := by
  show 70 ≤ 262144
  decide

theorem gpdu_fits : (gtpuDatagram ++ gpduMessage).length ≤ pcapMaxCaplen := gpduDatagram_fits 1 2

theorem paddedFrame_fits : paddedFrame.length ≤ pcapMaxCaplen := by decide

/-- Two G-PDUs of a tunnel, one of the answering tunnel, and a datagram without a message. -/
def talkRecords : List RawRecord :=
  [⟨5, 0, 70, datagramBetween 1 2 ++ gpduMessage, gpduDatagram_fits 1 2⟩,
    ⟨6, 0, 70, datagramBetween 1 2 ++ gpduMessage, gpduDatagram_fits 1 2⟩,
    ⟨7, 0, 70, datagramBetween 2 1 ++ gpduMessage, gpduDatagram_fits 2 1⟩,
    ⟨8, 0, 60, paddedFrame, paddedFrame_fits⟩]

def talk : PcapReader := capture talkRecords

theorem exists_talk : ∃ a a' r', analysisInit 64 true true true = some (some a) ∧
    analysisRun 64 (fun _ => ⟨true, true⟩) a talk = some (a', r', .eof) ∧
    (a'.flows.entries.map Flow.bytes, a'.tunnels.entries.map Flow.bytes) = ([210, 60], [70, 140]) :=
  exists_analysisRun _ _ (fun a => (a.flows.entries.map Flow.bytes, a.tunnels.entries.map Flow.bytes)) _ _
    (by decide +kernel)

/-- A G-PDU of tunnel `i`, cut behind its header. -/
def tunnelRecord (i : ℕ) : RawRecord :=
  ⟨5, 0, 70, gtpuDatagram ++ [0x30, 0xFF, 0, 20, 0, 0, 0, UInt8.ofNat i], by
    rw [List.length_append]
    show 50 ≤ 262144
    decide⟩

/-- G-PDUs of the tunnels `teid i`; the first table has room for 44 tunnels. -/
def tunnelCapture (teid : ℕ → ℕ) : PcapReader := capture ((List.range 46).map fun i => tunnelRecord (teid i))

theorem tunnelRecord_clean : ∀ i < 46,
    (decodeFrame (SpanWalk.Mem.ofList (tunnelRecord i).data) 50 70).status = .ok ∧
      (decodeFrame (SpanWalk.Mem.ofList (tunnelRecord i).data) 50 70).frag = .none := by
  decide +kernel

section tunnels

variable {rec rec' : PcapRecord} {i j : ℕ}

theorem Reads.tunnelBytes (h : Reads false rec (tunnelRecord i)) :
    ∀ k < 50, rec.frame.mem k = (tunnelRecord i).data.getD k 0 := by
  obtain ⟨p, hp, hbytes⟩ := h.data
  intro k hk
  have hbyte : p.byte k = (p.bytes 50).getD k 0 := Ptr.byte_eq p hk
  rw [PcapRecord.frame, hp, Option.getD_some, ← hbytes]
  exact hbyte

theorem Reads.tunnelOnly (hi : i < 46) (h : Reads false rec (tunnelRecord i))
    (h' : Reads false rec' (tunnelRecord j)) : TunnelOnly rec rec' := by
  have hcap : rec.caplen.toNat = 50 := h.caplen
  have hwire : rec.wirelen.toNat = 70 := h.wirelen
  have hpi : rec.frame.pi = decodeFrame (SpanWalk.Mem.ofList (tunnelRecord i).data) 50 70 := by
    have hframe : rec.frame.pi = decodeFrame rec.frame.mem rec.caplen.toNat rec.wirelen.toNat := rfl
    rw [hframe, hcap, hwire]
    exact decodeFrame_congr h.tunnelBytes 70
  have houter : ∀ {r : PcapRecord} {n : ℕ}, Reads false r (tunnelRecord n) →
      ∀ k < 42, r.frame.mem k = gtpuDatagram.getD k 0 := by
    intro r n hr k hk
    rw [hr.tunnelBytes k (by omega)]
    exact List.getD_append _ _ _ _ hk
  obtain ⟨hst, hfrag⟩ := tunnelRecord_clean i hi
  refine ⟨?_, ?_, ?_, .inr ⟨42,
    ⟨hpi ▸ hst, hpi ▸ hfrag, 34, transportAt_gtpuDatagram (houter h), rfl⟩, ?_⟩⟩
  · exact UInt32.toNat_inj.mp (h'.caplen.trans h.caplen.symm)
  · exact UInt32.toNat_inj.mp (h'.wirelen.trans h.wirelen.symm)
  · exact UInt64.toNat_inj.mp (h'.tsNs.trans h.tsNs.symm)
  · intro k hk
    rw [houter h k hk, houter h' k hk]

theorem tunnelOnly_of_reads {f g : ℕ → ℕ} : ∀ {is : List ℕ} {recs recs' : List PcapRecord},
    (∀ i ∈ is, f i < 46) → List.Forall₂ (Reads false) recs (is.map fun i => tunnelRecord (f i)) →
    List.Forall₂ (Reads false) recs' (is.map fun i => tunnelRecord (g i)) → List.Forall₂ TunnelOnly recs recs'
  | [], _, _, _, h, h' => by
      rw [List.map_nil, List.forall₂_nil_right_iff] at h h'
      rw [h, h']
      exact .nil
  | i :: is, _, _, hlt, h, h' => by
      rw [List.map_cons, List.forall₂_cons_right_iff] at h h'
      obtain ⟨rec, recs, hread, hreads, rfl⟩ := h
      obtain ⟨rec', recs', hread', hreads', rfl⟩ := h'
      exact .cons (hread.tunnelOnly (hlt i List.mem_cons_self) hread')
        (tunnelOnly_of_reads (fun j hj => hlt j (List.mem_cons_of_mem _ hj)) hreads hreads')

end tunnels

/-- The table of tunnels cannot be given room for the 45th tunnel. -/
theorem tunnelCapture_refused : ∃ a b q, analysisInit 64 true true true = some (some a) ∧
    analysisRun 64 (fun _ => ⟨true, false⟩) a (tunnelCapture id) = some (b, q, .errNomem) ∧
    b.stats.packets = 45 :=
  exists_analysisRun (fun _ => ⟨true, false⟩) (tunnelCapture id) (fun a => a.stats.packets) .errNomem 45
    (by decide +kernel)

/-- Where the table of tunnels cannot grow, the TEIDs decide where a run ends. -/
theorem tunnelGrowth_interferes : ∃ a recs recs' e e' b b' q q',
    analysisInit 64 true true true = some (some a) ∧
    Delivers (tunnelCapture id) recs .eof e ∧ Delivers (tunnelCapture fun _ => 0) recs' .eof e' ∧
    List.Forall₂ TunnelOnly recs recs' ∧
    analysisRun 64 (fun _ => ⟨true, false⟩) a (tunnelCapture id) = some (b, q, .errNomem) ∧
    analysisRun 64 (fun _ => ⟨true, false⟩) a (tunnelCapture fun _ => 0) = some (b', q', .eof) ∧
    b.stats.packets = 45 ∧ b'.stats.packets = 46 ∧ ¬ SameOuter b b' := by
  obtain ⟨recs, e, hdel, hreads⟩ := delivers_capture ((List.range 46).map fun i => tunnelRecord (id i))
  obtain ⟨recs', e', hdel', hreads'⟩ := delivers_capture ((List.range 46).map fun _ => tunnelRecord 0)
  have honly : List.Forall₂ TunnelOnly recs recs' :=
    tunnelOnly_of_reads (fun i hi => List.mem_range.mp hi) hreads hreads'
  obtain ⟨a, b, q, hinit, hrun, hpackets⟩ := tunnelCapture_refused
  obtain ⟨b', q', hrun', hpackets'⟩ := analysisRun_ends (fun _ => ⟨true, false⟩)
    (tunnelCapture fun _ => 0) (fun a => a.stats.packets) .eof 46 hinit (by decide +kernel)
  refine ⟨a, recs, recs', e, e', b, b', q, q', hinit, hdel, hdel', honly, hrun, hrun', hpackets, hpackets',
    fun hsame => ?_⟩
  have hstats := congrArg Stats.packets hsame.stats
  have hpackets₀ : b'.stats.packets = b.stats.packets := hstats
  rw [hpackets, hpackets'] at hpackets₀
  exact absurd hpackets₀ (by decide)

/-! ### Captures cut short -/

/-- The GTP-U counters that do not depend on the user packet. -/
def headerCounters : List Counter :=
  [.gtpPackets, .fragmented, .notV1u, .gpdu, .echoRequest, .echoResponse, .errorIndication, .endMarker,
    .otherType, .withSeq, .withExt]

/-- Two pipelines that differ in what they know of user packets only. -/
structure SameHeaders (a a' : Analysis) : Prop where
  flows : a'.flows = a.flows
  tunnels : a'.tunnels = a.tunnels
  frags : a'.frags = a.frags
  outer : a'.stats.noCaptured = a.stats.noCaptured
  gtpu : ∀ c ∈ headerCounters, c.get a'.stats = c.get a.stats

/-- Two frames that are read alike up to the user packet. -/
structure ReadAlike (f f' : Frame) : Prop where
  pi : f'.pi = f.pi ∨ f'.pi.noUser = f.pi.noUser ∧ f'.pi.gtpV1u = true
  wirelen : f'.wirelen = f.wirelen
  tsNs : f'.tsNs = f.tsNs

section headers

variable {w : ℕ} {a a' b b' : Analysis} {f f' : Frame} {ok : Grants} {v : Bool}

theorem Seen.count_noCaptured (s : Seen) (st : Stats) : (s.count st).noCaptured =
    (({ st.noCaptured with fragMatched := st.noCaptured.fragMatched + tick s.matched } : Stats).addFrame
      s.pi.outer 0 s.wirelen s.tsNs).addIp s.pi.outer := by
  rw [Seen.count, statsAdd_noCaptured]
  cases s.matched with
  | false => simp [Stats.noCaptured, Stats.noGtpu, tick]
  | true => rfl

theorem bookTables_noUser {flows tunnels : FlowTable} {p q : PacketInfo} (h : q.noUser = p.noUser)
    (len : UInt32) (ts : UInt64) (ok : Grants) :
    bookTables w flows tunnels q len ts ok = bookTables w flows tunnels p len ts ok :=
  PacketInfo.eq_of_erase PacketInfo.noUser (fun r => bookTables w flows tunnels r len ts ok)
    (fun _ => rfl) h

theorem headerCounters_hits {s t : Seen} (h : t.pi = s.pi ∨ t.pi.noUser = s.pi.noUser ∧ t.pi.gtpV1u = true) :
    ∀ c ∈ headerCounters, c.hits t = c.hits s := by
  obtain h | ⟨h, hv⟩ := h
  · simp only [headerCounters, List.forall_mem_cons, List.not_mem_nil, false_imp_iff, implies_true,
      and_true, Counter.hits, h]
  · have field : ∀ {β : Type} (g : PacketInfo → β), (∀ r, g r.noUser = g r) → g t.pi = g s.pi := by
      intro β g hg
      exact PacketInfo.eq_of_erase PacketInfo.noUser g hg h
    have hv' : s.pi.gtpV1u = true := (field PacketInfo.gtpV1u fun _ => rfl).symm.trans hv
    have hseen : t.pi.gtpuSeen = s.pi.gtpuSeen := field PacketInfo.gtpuSeen fun _ => rfl
    have hv1u : t.pi.v1uSeen = s.pi.v1uSeen := field PacketInfo.v1uSeen fun _ => rfl
    have hfrag : t.pi.gtpuFragment = s.pi.gtpuFragment := field PacketInfo.gtpuFragment fun _ => rfl
    have htype : t.pi.gtpMsgType = s.pi.gtpMsgType := field PacketInfo.gtpMsgType fun _ => rfl
    have hflags : t.pi.gtpFlags = s.pi.gtpFlags := field PacketInfo.gtpFlags fun _ => rfl
    have hext : t.pi.gtpExtCount = s.pi.gtpExtCount := field PacketInfo.gtpExtCount fun _ => rfl
    simp only [headerCounters, List.forall_mem_cons, List.not_mem_nil, false_imp_iff, implies_true,
      and_true, Counter.hits, hseen, hv1u, hfrag, htype, hflags, hext, hv, hv', Bool.not_true,
      Bool.false_and]

/-- One call keeps what two pipelines have in common, and ends alike. -/
theorem SameHeaders.step (h : SameHeaders a a') (hf : ReadAlike f f')
    (hcall : analysisAccount w a f.pi f.caplen f.wirelen f.tsNs ok = some (b, v)) :
    ∃ b', analysisAccount w a' f'.pi f'.caplen f'.wirelen f'.tsNs ok = some (b', v) ∧ SameHeaders b b' := by
  rw [analysisAccount_eq] at hcall
  obtain ⟨⟨flows₁, tunnels₁, v⟩, hbook, hb⟩ := Option.map_eq_some_iff.mp hcall
  simp only [Prod.mk.injEq] at hb
  obtain ⟨rfl, rfl⟩ := hb
  have hno : f'.pi.noUser = f.pi.noUser := by
    obtain heq | ⟨hno, -⟩ := hf.pi
    · rw [heq]
    · exact hno
  obtain ⟨hcache, hmatched, hno'⟩ := fragCacheApply_erase (w := w) keepsOuter_noUser a.frags hno
  have hseen : (seen w a.frags f').pi = (seen w a.frags f).pi ∨
      (seen w a.frags f').pi.noUser = (seen w a.frags f).pi.noUser ∧ (seen w a.frags f').pi.gtpV1u = true := by
    obtain heq | ⟨-, hv⟩ := hf.pi
    · left
      rw [seen, seen, heq]
    · refine .inr ⟨hno', ?_⟩
      rw [← hv]
      exact PacketInfo.eq_of_erase PacketInfo.noPorts PacketInfo.gtpV1u (fun _ => rfl)
        (fragCacheApply_frame w a.frags f'.pi).1
  have houter : (seen w a.frags f').pi.outer = (seen w a.frags f).pi.outer :=
    PacketInfo.eq_of_erase PacketInfo.noUser PacketInfo.outer (fun _ => rfl) hno'
  have hm : (seen w a.frags f').matched = (seen w a.frags f).matched := hmatched
  refine ⟨⟨(seen w a'.frags f').count a'.stats, flows₁, tunnels₁, (fragCacheApply w a'.frags f'.pi).1⟩, ?_,
    rfl, rfl, ?_, ?_, ?_⟩
  · have hbook' : bookTables w a.flows a.tunnels (seen w a.frags f').pi f.wirelen f.tsNs ok =
        some (flows₁, tunnels₁, v) := (bookTables_noUser hno' _ _ _).trans hbook
    rw [analysisAccount_eq, h.frags, h.flows, h.tunnels, hf.wirelen, hf.tsNs, hbook']
    rfl
  · rw [h.frags]
    exact hcache
  · rw [h.frags, Seen.count_noCaptured, Seen.count_noCaptured, h.outer, houter, hm]
    simp only [seen, hf.wirelen, hf.tsNs]
  · intro c hc
    rw [h.frags, Seen.count_get, Seen.count_get, h.gtpu c hc, headerCounters_hits hseen c hc]

/-- **A whole run keeps what two pipelines have in common.** -/
theorem SameHeaders.run {fs fs' : List Frame} {ok : ℕ → Grants} (hfs : List.Forall₂ ReadAlike fs fs') :
    ∀ {a a' : Analysis} {i : ℕ}, SameHeaders a a' → accountAll w ok i a fs = some (b, v) →
      ∃ b', accountAll w ok i a' fs' = some (b', v) ∧ SameHeaders b b' := by
  induction hfs with
  | nil =>
      intro a a' i h hrun
      rw [accountAll, Option.some.injEq, Prod.mk.injEq] at hrun
      obtain ⟨rfl, rfl⟩ := hrun
      exact ⟨a', rfl, h⟩
  | cons hf _ ih =>
      intro a a' i h hrun
      rw [accountAll, Option.bind_eq_bind] at hrun
      obtain ⟨⟨a₁, v₁⟩, hcall, hrest⟩ := Option.bind_eq_some_iff.mp hrun
      obtain ⟨a₂, hcall', h'⟩ := h.step hf hcall
      rw [accountAll, hcall', Option.bind_eq_bind, Option.bind_some]
      cases v₁ with
      | false =>
          simp only [Bool.not_false, if_true, Option.some.injEq, Prod.mk.injEq] at hrest
          obtain ⟨rfl, rfl⟩ := hrest
          exact ⟨a₂, rfl, h'⟩
      | true => exact ih h' hrest

end headers

/-- `rec'` is `rec` with fewer captured bytes. -/
structure Shortened (rec rec' : PcapRecord) : Prop where
  caplen : rec'.caplen ≤ rec.caplen
  wirelen : rec'.wirelen = rec.wirelen
  tsNs : rec'.tsNs = rec.tsNs
  bytes : ∀ i < rec'.caplen.toNat, rec'.frame.mem i = rec.frame.mem i

/-- The cut fell behind the GTP-U headers, or was not noticed. -/
def headersIntact (pi : PacketInfo) : Prop :=
  decodeStatusIsTruncation pi.status = false ∧ pi.gtpStatus ∉ [DecodeStatus.truncGtpu, .truncGtpuExt]

theorem Shortened.readAlike {rec rec' : PcapRecord} (h : Shortened rec rec')
    (hwhole : rec.caplen.toNat ≤ rec.wirelen.toNat) (hok : headersIntact rec'.decode) :
    ReadAlike rec.frame rec'.frame := by
  have hpi : rec'.frame.pi = decodeFrame rec.frame.mem rec'.caplen.toNat rec.wirelen.toNat := by
    have hwire : rec'.frame.wirelen = rec.wirelen := h.wirelen
    rw [Frame.pi, hwire]
    exact decodeFrame_congr h.bytes _
  have hcut : FrameCut rec'.frame.pi rec.frame.pi := by
    rw [hpi]
    exact decodeFrame_cut (UInt32.le_iff_toNat_le.mp h.caplen) hwhole
  refine ⟨?_, h.wirelen, h.tsNs⟩
  have hst : decodeStatusIsTruncation rec'.frame.pi.status = false := hok.1
  have hgtp : rec'.frame.pi.gtpStatus ∉ [DecodeStatus.truncGtpu, .truncGtpuExt] := hok.2
  generalize rec'.frame.pi = A, rec.frame.pi = B at *
  cases hcut with
  | same => exact .inl rfl
  | user _ hv hno _ => exact .inr ⟨hno, hv⟩
  | gtpu hT _ _ =>
      obtain hT | hT := hT
      · exact absurd (List.mem_cons.mpr (.inl hT)) hgtp
      · exact absurd (List.mem_cons_of_mem _ (List.mem_singleton.mpr hT)) hgtp
  | outer hT _ _ => exact absurd (hst.symm.trans hT) Bool.false_ne_true

/-- **Captures of the headers only give the same tables.** -/
theorem analysisRun_headersOnly {w : ℕ} {okFlows okTunnels okFrags : Bool} {a : Analysis}
    (hinit : analysisInit w okFlows okTunnels okFrags = some (some a)) (ok : ℕ → Grants)
    {r r' e e' : PcapReader} {recs recs' : List PcapRecord} {st st' : PcapStatus}
    (hdel : Delivers r recs st e) (hdel' : Delivers r' recs' st' e')
    (hcut : List.Forall₂ Shortened recs recs') (hok : ∀ rec ∈ recs', headersIntact rec.decode) :
    ∃ b q s b' q' s', analysisRun w ok a r = some (b, q, s) ∧ analysisRun w ok a r' = some (b', q', s') ∧
      b'.flows = b.flows ∧ b'.tunnels = b.tunnels ∧ b'.frags = b.frags ∧
      b'.stats.noCaptured = b.stats.noCaptured ∧ ∀ c ∈ headerCounters, c.get b'.stats = c.get b.stats := by
  have hframes : List.Forall₂ ReadAlike (recs.map PcapRecord.frame) (recs'.map PcapRecord.frame) := by
    rw [List.forall₂_map_left_iff, List.forall₂_map_right_iff]
    have hwhole := hdel.caplen_le
    clear hdel hdel'
    induction hcut with
    | nil => exact .nil
    | cons h _ ih =>
        rw [List.forall_mem_cons] at hwhole hok
        exact .cons (h.readAlike hwhole.1 hok.1) (ih hok.2 hwhole.2)
  obtain ⟨b, v, hrun, -⟩ := @accountAll_spec w ok (recs.map PcapRecord.frame) a 0 (Fresh.of_init hinit).inv
  have hstart : SameHeaders a a := ⟨rfl, rfl, rfl, rfl, fun _ _ => rfl⟩
  obtain ⟨b', hrun', hsame⟩ := SameHeaders.run hframes hstart hrun
  obtain ⟨q, s, hloop, -⟩ := analysisRun_of_delivers hdel hrun
  obtain ⟨q', s', hloop', -⟩ := analysisRun_of_delivers hdel' hrun'
  exact ⟨b, q, s, b', q', s', hloop, hloop', hsame.flows, hsame.tunnels, hsame.frags, hsame.outer, hsame.gtpu⟩

theorem analysisRun_headersOnly_gpdu :
    ∃ a b q s b' q' s', analysisInit 64 true true true = some (some a) ∧
      analysisRun 64 (fun _ => ⟨true, true⟩) a (datagramCapture gpduMessage 28) = some (b, q, s) ∧
      analysisRun 64 (fun _ => ⟨true, true⟩) a (datagramCapture gpduMessage 10) = some (b', q', s') ∧
      b'.flows = b.flows ∧ b'.tunnels = b.tunnels ∧ b'.frags = b.frags ∧
      b'.stats.noCaptured = b.stats.noCaptured ∧ ∀ c ∈ headerCounters, c.get b'.stats = c.get b.stats := by
  obtain ⟨a, hinit⟩ := exists_init
  have hdel := @delivers_one (datagramCapture gpduMessage 28) (by decide +kernel)
  have hdel' := @delivers_one (datagramCapture gpduMessage 10) (by decide +kernel)
  have hcut : Shortened (datagramRecord gpduMessage 28) (datagramRecord gpduMessage 10) :=
    ⟨by decide +kernel, by decide +kernel, by decide +kernel, by decide +kernel⟩
  have hok : headersIntact (datagramRecord gpduMessage 10).decode := ⟨by decide +kernel, by decide +kernel⟩
  obtain ⟨b, q, s, b', q', s', h⟩ := analysisRun_headersOnly hinit (fun _ => ⟨true, true⟩) hdel hdel'
    (.cons hcut .nil) (List.forall_mem_singleton.mpr hok)
  exact ⟨a, b, q, s, b', q', s', hinit, h⟩

end Pcapstat
