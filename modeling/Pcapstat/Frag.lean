import Pcapstat.Flow

/-! # The fragment cache (`frag.h`, `frag.c`)

A direct-mapped cache from (IP version, protocol, identification, source, destination) to the
ports of a first fragment. -/

namespace Pcapstat

def fragCacheSlots : ℕ := 4096

/-- `struct frag_entry` -/
structure FragEntry where
  inUse : Bool := false
  ipVersion : UInt8 := 0
  proto : UInt8 := 0
  id : UInt32 := 0
  src : Addr := .zero
  dst : Addr := .zero
  srcPort : UInt16 := 0
  dstPort : UInt16 := 0
deriving DecidableEq, Repr

/-- `struct frag_cache`: `none` for a null pointer, otherwise `FRAG_CACHE_SLOTS` entries. -/
structure FragCache where
  slots : Option (ℕ → FragEntry)

/-- `frag_cache_init`; the second component is false when it returns -1. -/
def fragCacheInit (ok : Bool) : FragCache × Bool :=
  if ok then (⟨some fun _ => {}⟩, true) else (⟨none⟩, false)

def slotFor (w : ℕ) (pi : PacketInfo) : ℕ :=
  let head : List UInt8 :=
    [pi.ipVersion, pi.ipProto, (pi.fragId >>> 24).toUInt8, (pi.fragId >>> 16).toUInt8,
      (pi.fragId >>> 8).toUInt8, pi.fragId.toUInt8]
  let h := fnv1a fnv64Offset head
  let h := fnv1a h pi.srcAddr.bytes
  let h := fnv1a h pi.dstAddr.bytes
  h.toNat % 2 ^ w &&& (fragCacheSlots - 1)

def sameDatagram (e : FragEntry) (pi : PacketInfo) : Bool :=
  e.inUse && e.ipVersion = pi.ipVersion && e.proto = pi.ipProto && e.id = pi.fragId &&
    memcmp e.src.bytes pi.srcAddr.bytes = .eq && memcmp e.dst.bytes pi.dstAddr.bytes = .eq

/-- What a first fragment leaves in its slot. -/
def FragEntry.ofFirst (pi : PacketInfo) : FragEntry where
  inUse := true
  ipVersion := pi.ipVersion
  proto := pi.ipProto
  id := pi.fragId
  src := pi.srcAddr
  dst := pi.dstAddr
  srcPort := pi.srcPort
  dstPort := pi.dstPort

/-- `frag_cache_apply`: the cache, the packet and whether ports were filled in. -/
def fragCacheApply (w : ℕ) (c : FragCache) (pi : PacketInfo) : FragCache × PacketInfo × Bool :=
  match c.slots with
  | none => (c, pi, false)
  | some slots =>
      if pi.status ≠ .ok || !pi.hasL3 then (c, pi, false)
      else if pi.frag = .first && pi.hasL4 then
        (⟨some (Function.update slots (slotFor w pi) (.ofFirst pi))⟩, pi, false)
      else if pi.frag = .later then
        let e := slots (slotFor w pi)
        if !sameDatagram e pi then (c, pi, false)
        else (c, { pi with srcPort := e.srcPort, dstPort := e.dstPort }, true)
      else (c, pi, false)

end Pcapstat
