import Pcapstat.Decode
import Pcapstat.LinearProbe

/-! # The flow table (`flow.h`, `flow.c`)

An open-addressing hash table of flows and, with other keys, of GTP-U tunnels.

* `w` is the width of `size_t`; the products of the load check are taken modulo `2 ^ w`.
* The answer of the allocator is an argument (`ok`) of the functions that call `calloc`.
* A pointer into the slots is an index, and a null pointer is `none`.
* The outer `Option` of a result is `none` for a call that does not return: each probe loop
  may look at `capacity` slots, and a loop that has not ended by then never ends. -/

namespace Pcapstat

open LinearProbe

/-! ### Data -/

/-- `struct flow_key` -/
structure FlowKey where
  teid : UInt32 := 0
  ipVersion : UInt8 := 0
  proto : UInt8 := 0
  portA : UInt16 := 0
  portB : UInt16 := 0
  addrA : Addr := .zero
  addrB : Addr := .zero
deriving DecidableEq, Repr

/-- `struct flow` -/
structure Flow where
  key : FlowKey := {}
  tcpFlags : UInt8 := 0
  firstFromB : Bool := false
  inUse : Bool := false
  hash : UInt64 := 0
  packets : UInt64 := 0
  bytes : UInt64 := 0
  firstTsNs : UInt64 := 0
  lastTsNs : UInt64 := 0
deriving DecidableEq, Repr

/-- `struct flow_table`; the slots are `[]` for a null pointer. -/
structure FlowTable where
  slots : List Flow
  capacity : ℕ
  count : ℕ
deriving DecidableEq, Repr

/-- `t->slots[i]` -/
def FlowTable.slot (t : FlowTable) (i : ℕ) : Flow := t.slots.getD i {}

def minCapacity : ℕ := 16
def loadNum : ℕ := 7
def loadDen : ℕ := 10

/-- `sizeof(struct flow)` -/
def flowSize : ℕ := 88

/-- `SIZE_MAX` -/
def sizeMax (w : ℕ) : ℕ := 2 ^ w - 1

/-- Does `calloc(n, size)` succeed, when the allocator would answer `ok`? -/
def calloc (w n size : ℕ) (ok : Bool) : Bool := ok && n * size ≤ sizeMax w

/-! ### Keys -/

def keyHash (k : FlowKey) : UInt64 :=
  let head : List UInt8 :=
    [k.ipVersion, k.proto, (k.portA >>> 8).toUInt8, k.portA.toUInt8, (k.portB >>> 8).toUInt8,
      k.portB.toUInt8, (k.teid >>> 24).toUInt8, (k.teid >>> 16).toUInt8, (k.teid >>> 8).toUInt8,
      k.teid.toUInt8]
  let h := fnv1a fnv64Offset head
  let h := fnv1a h k.addrA.bytes
  fnv1a h k.addrB.bytes

def keyEqual (a b : FlowKey) : Bool :=
  a.teid = b.teid && a.ipVersion = b.ipVersion && a.proto = b.proto && a.portA = b.portA &&
    a.portB = b.portB && memcmp a.addrA.bytes b.addrA.bytes = .eq &&
    memcmp a.addrB.bytes b.addrB.bytes = .eq

/-- Is the packet reversed, that is, does it travel from endpoint B to endpoint A? -/
def fromB (pi : PacketInfo) : Bool :=
  match memcmp pi.srcAddr.bytes pi.dstAddr.bytes with
  | .lt => false
  | .eq => pi.dstPort < pi.srcPort
  | .gt => true

/-- `flow_key_from_packet`: the canonical key and `*reversed`. -/
def flowKeyFromPacket (pi : PacketInfo) : Option (FlowKey × Bool) :=
  if !pi.hasL3 then none
  else
    let key : FlowKey := { ipVersion := pi.ipVersion, proto := pi.ipProto }
    if !fromB pi then
      some ({ key with
        addrA := pi.srcAddr, addrB := pi.dstAddr, portA := pi.srcPort, portB := pi.dstPort }, false)
    else
      some ({ key with
        addrA := pi.dstAddr, addrB := pi.srcAddr, portA := pi.dstPort, portB := pi.srcPort }, true)

def tunnelKeyFromPacket (pi : PacketInfo) : Option FlowKey :=
  if !pi.isGtpu || !pi.gtpV1u then none
  else some { teid := pi.teid, ipVersion := pi.ipVersion, proto := pi.ipProto, addrA := pi.srcAddr
              addrB := pi.dstAddr }

/-! ### The table -/

/-- `flow_table_init`; the second component is false when it returns -1. -/
def flowTableInit (w capacityHint : ℕ) (ok : Bool) : Option (FlowTable × Bool) := do
  let cap ← seek (fun cap => !(cap < capacityHint && cap ≤ sizeMax w / 2 / flowSize)) (· * 2) (w + 1)
    minCapacity
  if calloc w cap flowSize ok then some (⟨List.replicate cap {}, cap, 0⟩, true)
  else some (⟨[], 0, 0⟩, false)

/-- `(size_t)hash & mask` -/
def homeSlot (w : ℕ) (hash : UInt64) (mask : ℕ) : ℕ := hash.toNat % 2 ^ w &&& mask

/-- `i = (i + 1) & mask` -/
def nextSlot (mask i : ℕ) : ℕ := (i + 1) &&& mask

def place (w : ℕ) (slots : List Flow) (mask : ℕ) (f : Flow) : Option (List Flow) := do
  let i ← seek (fun i => !(slots.getD i {}).inUse) (nextSlot mask) (mask + 1) (homeSlot w f.hash mask)
  some (slots.set i f)

/-- `grow`; the second component is false when it returns -1. -/
def grow (w : ℕ) (t : FlowTable) (ok : Bool) : Option (FlowTable × Bool) :=
  if t.capacity > sizeMax w / 2 / flowSize then some (t, false)
  else
    let newCap := t.capacity * 2
    if !calloc w newCap flowSize ok then some (t, false)
    else do
      let bigger ← t.slots.foldlM
        (fun bigger f => if f.inUse then place w bigger (newCap - 1) f else some bigger)
        (List.replicate newCap {})
      some ({ t with slots := bigger, capacity := newCap }, true)

def flowTableFind (w : ℕ) (t : FlowTable) (key : FlowKey) : Option (Option ℕ) :=
  if t.capacity = 0 then some none
  else do
    let mask := t.capacity - 1
    let i ← seek (fun i => !(t.slot i).inUse || keyEqual (t.slot i).key key) (nextSlot mask) t.capacity
      (homeSlot w (keyHash key) mask)
    some (if (t.slot i).inUse then some i else none)

/-- The part of `flow_table_find_or_insert` after the table has been given room. -/
def findOrInsert (w : ℕ) (t : FlowTable) (key : FlowKey) : Option (FlowTable × Option ℕ × Bool) := do
  let h := keyHash key
  let mask := t.capacity - 1
  let i ← seek (fun i => !(t.slot i).inUse || (t.slot i).hash = h && keyEqual (t.slot i).key key)
    (nextSlot mask) t.capacity (homeSlot w h mask)
  if (t.slot i).inUse then some (t, some i, false)
  else
    some ({ t with
      slots := t.slots.set i { key := key, hash := h, inUse := true }
      count := t.count + 1 }, some i, true)

/-- `(count + 1) * LOAD_DEN > capacity * LOAD_NUM`, in `size_t`. -/
def needsRoom (w : ℕ) (t : FlowTable) : Bool :=
  (t.count + 1) * loadDen % 2 ^ w > t.capacity * loadNum % 2 ^ w

/-- `flow_table_find_or_insert`: the table, the returned pointer and `*inserted`. -/
def flowTableFindOrInsert (w : ℕ) (t : FlowTable) (key : FlowKey) (ok : Bool) :
    Option (FlowTable × Option ℕ × Bool) :=
  if t.capacity = 0 then some (t, none, false)
  else if needsRoom w t then do
    let (t, grown) ← grow w t ok
    if grown then findOrInsert w t key else some (t, none, false)
  else findOrInsert w t key

/-- The loop of `flow_table_next` over the last `left` slots. -/
def nextInUse (t : FlowTable) : (left pos : ℕ) → Option ℕ × ℕ
  | 0, pos => (none, pos)
  | left + 1, pos => if (t.slot pos).inUse then (some pos, pos + 1) else nextInUse t left (pos + 1)

/-- `flow_table_next`: the returned pointer and the new `*pos`. -/
def flowTableNext (t : FlowTable) (pos : ℕ) : Option ℕ × ℕ := nextInUse t (t.capacity - pos) pos

/-! ### Accounting -/

/-- What `account` does to the entry it got. -/
def Flow.account (f : Flow) (inserted reversed : Bool) (tcpFlags : UInt8) (wireLen : UInt32)
    (tsNs : UInt64) : Flow :=
  let f := if inserted then { f with firstTsNs := tsNs, lastTsNs := tsNs, firstFromB := reversed } else f
  let f := if tsNs < f.firstTsNs then { f with firstTsNs := tsNs, firstFromB := reversed } else f
  let f := if tsNs > f.lastTsNs then { f with lastTsNs := tsNs } else f
  { f with
    packets := f.packets + 1
    bytes := f.bytes + wireLen.toUInt64
    tcpFlags := f.tcpFlags ||| tcpFlags }

/-- `account`; the second component is false when it returns -1. -/
def account (w : ℕ) (t : FlowTable) (key : FlowKey) (reversed : Bool) (tcpFlags : UInt8)
    (wireLen : UInt32) (tsNs : UInt64) (ok : Bool) : Option (FlowTable × Bool) := do
  let (t, f, inserted) ← flowTableFindOrInsert w t key ok
  match f with
  | none => some (t, false)
  | some i =>
      let slots := t.slots.set i ((t.slot i).account inserted reversed tcpFlags wireLen tsNs)
      some ({ t with slots := slots }, true)

def flowTableAddPacket (w : ℕ) (t : FlowTable) (pi : PacketInfo) (wireLen : UInt32) (tsNs : UInt64)
    (ok : Bool) : Option (FlowTable × Bool) :=
  match flowKeyFromPacket pi with
  | none => some (t, true)
  | some (key, reversed) =>
      let flags := if pi.ipProto = ipprotoTcp && pi.hasL4 then pi.tcpFlags else 0
      account w t key reversed flags wireLen tsNs ok

def flowTableAddTunnel (w : ℕ) (t : FlowTable) (pi : PacketInfo) (wireLen : UInt32) (tsNs : UInt64)
    (ok : Bool) : Option (FlowTable × Bool) :=
  match tunnelKeyFromPacket pi with
  | none => some (t, true)
  | some key => account w t key false 0 wireLen tsNs ok

end Pcapstat
