import Pcapstat.Decode
import Pcapstat.PcapWriter
import Pcapstat.WalkBytes

/-! # Writing headers (`tests/builder.c`)

The test suite writes every header field by field in network byte order.  The decoder reads a 16-bit or
32-bit field back as it was written (`Covers.be16`, `Covers.be32`). -/

namespace Pcapstat

open SpanWalk

/-! ### Integers -/

/-- `bb_be16` -/
def bbBe16 (v : UInt16) : List UInt8 := bbU16 v true

/-- `bb_be32` -/
def bbBe32 (v : UInt32) : List UInt8 := bbU32 v true

@[simp] theorem length_bbBe16 (v : UInt16) : (bbBe16 v).length = 2 := rfl

@[simp] theorem length_bbBe32 (v : UInt32) : (bbBe32 v).length = 4 := rfl

section reading

variable {m : Mem} {s : Span} {bs : List UInt8} {i : ℕ}

theorem be16_covers {v : UInt16} (h : Covers m s bs) (h₀ : bs[i]? = some (v >>> 8).toUInt8)
    (h₁ : bs[i + 1]? = some v.toUInt8) : be16 m (s.p + i) = v := by
  unfold be16
  rw [h.byte h₀, Nat.add_assoc, h.byte h₁, loadBe16_bytes]

theorem be32_covers {v : UInt32} (h : Covers m s bs) (h₀ : bs[i]? = some (v >>> 24).toUInt8)
    (h₁ : bs[i + 1]? = some (v >>> 16).toUInt8) (h₂ : bs[i + 2]? = some (v >>> 8).toUInt8)
    (h₃ : bs[i + 3]? = some v.toUInt8) : be32 m (s.p + i) = v := by
  unfold be32
  rw [Nat.add_assoc, Nat.add_assoc, Nat.add_assoc, h.byte h₀, h.byte h₁, h.byte h₂, h.byte h₃,
    loadBe32_bytes]

theorem be16_part {xs ys : List UInt8} {v : UInt16} (h : Covers m s (xs ++ (bbBe16 v ++ ys)))
    (hi : xs.length = i) : be16 m (s.p + i) = v := by
  subst hi
  apply be16_covers h
  · rw [List.getElem?_append_right (Nat.le_refl _), Nat.sub_self]
    rfl
  · rw [List.getElem?_append_right (Nat.le_add_right _ 1), Nat.add_sub_cancel_left]
    rfl

theorem exists_bbBe16 (b b' : UInt8) : ∃ v, [b, b'] = bbBe16 v := by
  have hbits : ∀ x y : BitVec 8, (((x.setWidth 16) <<< 8 ||| y.setWidth 16) >>> 8).setWidth 8 = x ∧
      ((x.setWidth 16) <<< 8 ||| y.setWidth 16).setWidth 8 = y := by
    intro x y
    constructor
    all_goals
      apply BitVec.eq_of_getLsbD_eq
      intro i hi
      simp only [BitVec.getLsbD_or, BitVec.getLsbD_shiftLeft, BitVec.getLsbD_setWidth,
        BitVec.getLsbD_ushiftRight]
      grind
  refine ⟨loadBe16 b b', ?_⟩
  show [b, b'] = [(loadBe16 b b' >>> 8).toUInt8, (loadBe16 b b').toUInt8]
  obtain ⟨hhigh, hlow⟩ := hbits b.toBitVec b'.toBitVec
  congr 1
  · exact UInt8.toBitVec_inj.mp hhigh.symm
  · congr 1
    exact UInt8.toBitVec_inj.mp hlow.symm

theorem exists_bbBe32 (b₃ b₂ b₁ b₀ : UInt8) : ∃ v, [b₃, b₂, b₁, b₀] = bbBe32 v := by
  have hbits : ∀ x₃ x₂ x₁ x₀ : BitVec 8, ∀ x : BitVec 32, x = x₃.setWidth 32 <<< 24 |||
      x₂.setWidth 32 <<< 16 ||| x₁.setWidth 32 <<< 8 ||| x₀.setWidth 32 →
      (x >>> 24).setWidth 8 = x₃ ∧ (x >>> 16).setWidth 8 = x₂ ∧ (x >>> 8).setWidth 8 = x₁ ∧
        x.setWidth 8 = x₀ := by
    rintro x₃ x₂ x₁ x₀ x rfl
    refine ⟨?_, ?_, ?_, ?_⟩
    all_goals
      apply BitVec.eq_of_getLsbD_eq
      intro i hi
      simp only [BitVec.getLsbD_or, BitVec.getLsbD_shiftLeft, BitVec.getLsbD_setWidth,
        BitVec.getLsbD_ushiftRight]
      grind
  obtain ⟨v, hv⟩ : ∃ v, v = loadBe32 b₃ b₂ b₁ b₀ := ⟨_, rfl⟩
  obtain ⟨h₃, h₂, h₁, h₀⟩ := hbits b₃.toBitVec b₂.toBitVec b₁.toBitVec b₀.toBitVec v.toBitVec
    (congrArg UInt32.toBitVec hv)
  have e₃ : (v >>> 24).toUInt8 = b₃ := UInt8.toBitVec_inj.mp h₃
  have e₂ : (v >>> 16).toUInt8 = b₂ := UInt8.toBitVec_inj.mp h₂
  have e₁ : (v >>> 8).toUInt8 = b₁ := UInt8.toBitVec_inj.mp h₁
  have e₀ : v.toUInt8 = b₀ := UInt8.toBitVec_inj.mp h₀
  refine ⟨v, ?_⟩
  show _ = [(v >>> 24).toUInt8, (v >>> 16).toUInt8, (v >>> 8).toUInt8, v.toUInt8]
  rw [e₃, e₂, e₁, e₀]

end reading

/-! ### Link and network headers

Each layout has all fields of its header; `putX` is what the test suite writes into it. -/

/-- An Ethernet header. -/
def ethBytes (dst src : List UInt8) (ethertype : UInt16) : List UInt8 := dst ++ (src ++ bbBe16 ethertype)

/-- `put_eth` -/
def putEth (ethertype : UInt16) : List UInt8 :=
  ethBytes [0x02, 0x00, 0x00, 0x00, 0x00, 0x02] [0x02, 0x00, 0x00, 0x00, 0x00, 0x01] ethertype

/-- `put_vlan`, with any priority: the four bytes behind a TPID. -/
def vlanBytes (tci nextEthertype : UInt16) : List UInt8 := bbBe16 tci ++ bbBe16 nextEthertype

/-- An IPv4 header. -/
def ipv4Bytes (versionIhl tos : UInt8) (total id frag : UInt16) (ttl proto : UInt8) (checksum : UInt16)
    (src dst options : List UInt8) : List UInt8 :=
  versionIhl :: tos :: (bbBe16 total ++ (bbBe16 id ++ (bbBe16 frag ++ (ttl :: proto ::
    (bbBe16 checksum ++ (src ++ (dst ++ options)))))))

/-- `put_ipv4` -/
def putIpv4 (proto : UInt8) (src dst : List UInt8) (payloadLen optWords : ℕ) (frag : UInt16) : List UInt8 :=
  ipv4Bytes (0x40 ||| (UInt8.ofNat (5 + optWords) &&& 0x0F)) 0 (UInt16.ofNat (20 + 4 * optWords + payloadLen))
    0x1234 frag 64 proto 0 src dst (List.replicate (4 * optWords) 0x01)

/-- An IPv6 header; the first word holds the version, the class and the flow label. -/
def ipv6Bytes (word : UInt32) (payload : UInt16) (next hopLimit : UInt8) (src dst : List UInt8) : List UInt8 :=
  bbBe32 word ++ (bbBe16 payload ++ (next :: hopLimit :: (src ++ dst)))

/-- `put_ipv6` -/
def putIpv6 (next : UInt8) (src dst : List UInt8) (payloadLen : ℕ) : List UInt8 :=
  ipv6Bytes 0x60000000 (UInt16.ofNat payloadLen) next 64 src dst

/-! ### Transport headers -/

/-- A TCP header. -/
def tcpBytes (srcPort dstPort : UInt16) (seq ack : UInt32) (dataOffset flags : UInt8)
    (window checksum urgent : UInt16) (options : List UInt8) : List UInt8 :=
  bbBe16 srcPort ++ (bbBe16 dstPort ++ (bbBe32 seq ++ (bbBe32 ack ++ (dataOffset :: flags ::
    (bbBe16 window ++ (bbBe16 checksum ++ (bbBe16 urgent ++ options)))))))

/-- `put_tcp` -/
def putTcp (sport dport : UInt16) (flags : UInt8) : List UInt8 :=
  tcpBytes sport dport 1000 2000 ((5 : UInt8) <<< 4) flags 65535 0 0 []

/-- A UDP header. -/
def udpBytes (srcPort dstPort length checksum : UInt16) : List UInt8 :=
  bbBe16 srcPort ++ (bbBe16 dstPort ++ (bbBe16 length ++ bbBe16 checksum))

/-- `put_udp` -/
def putUdp (sport dport : UInt16) (payloadLen : ℕ) : List UInt8 :=
  udpBytes sport dport (UInt16.ofNat (8 + payloadLen)) 0

/-- The part of an ICMP header that all messages share. -/
def icmpBytes (type code : UInt8) (checksum : UInt16) : List UInt8 := type :: code :: bbBe16 checksum

/-- `put_icmp` -/
def putIcmp (type code : UInt8) : List UInt8 := icmpBytes type code 0 ++ (bbBe16 0x0042 ++ bbBe16 1)

/-! ### Frames -/

/-- `frame_v4_tcp` -/
def frameV4Tcp (src dst : List UInt8) (sport dport : UInt16) (flags : UInt8) (payload : ℕ) : List UInt8 :=
  putEth ethertypeIpv4 ++ (putIpv4 ipprotoTcp src dst (20 + payload) 0 0x4000 ++ (putTcp sport dport flags ++
    List.replicate payload 0xAB))

/-- `frame_v4_udp` -/
def frameV4Udp (src dst : List UInt8) (sport dport : UInt16) (payload : ℕ) : List UInt8 :=
  putEth ethertypeIpv4 ++ (putIpv4 ipprotoUdp src dst (8 + payload) 0 0 ++ (putUdp sport dport payload ++
    List.replicate payload 0xCD))

/-- `frame_v6_tcp` -/
def frameV6Tcp (src dst : List UInt8) (sport dport : UInt16) (flags : UInt8) (payload : ℕ) : List UInt8 :=
  putEth ethertypeIpv6 ++ (putIpv6 ipprotoTcp src dst (20 + payload) ++ (putTcp sport dport flags ++
    List.replicate payload 0xEF))

/-! ### GTP-U -/

/-- `put_gtpu` -/
def putGtpu (flags type : UInt8) (length : UInt16) (teid : UInt32) : List UInt8 :=
  flags :: type :: (bbBe16 length ++ bbBe32 teid)

/-- `put_gtpu_opt` -/
def putGtpuOpt (seq : UInt16) (npdu nextType : UInt8) : List UInt8 := bbBe16 seq ++ [npdu, nextType]

/-- `put_gtpu_ext` -/
def putGtpuExt (units nextType : UInt8) : List UInt8 :=
  units :: (List.replicate (4 * units.toNat - 2) 0 ++ [nextType])

@[simp] theorem length_putGtpu (flags type : UInt8) (length : UInt16) (teid : UInt32) :
    (putGtpu flags type length teid).length = gtpuHdrLen := rfl

@[simp] theorem length_putGtpuOpt (seq : UInt16) (npdu nextType : UInt8) :
    (putGtpuOpt seq npdu nextType).length = gtpuOptLen := rfl

end Pcapstat
