import Pcapstat.FrameWriter

/-! # The grammar of GTPv1-U messages

A message is a header, four optional bytes if one of the flags E, S and PN is set, a chain of extension
headers if E is, and a remainder.  `GtpuMessage.bytes` lays one out as the test suite writes it.  What
starts like a message is one, with some bytes behind it, or has a defect (`GtpuDefect`), and the defects
are the ways in which a declared length or the chain can fail. -/

namespace Pcapstat

/-! ### Extension headers -/

/-- An extension header.  Its length byte counts 4-byte units, of the whole header. -/
structure GtpuExt where
  type : UInt8
  units : UInt8
  content : List UInt8
  typed : type ≠ 0
  length_eq : content.length + 2 = 4 * units.toNat

/-- The type of the first header of a chain that names `last` at its end. -/
def firstType : List GtpuExt → UInt8 → UInt8
  | [], last => last
  | e :: _, _ => e.type

def GtpuExt.bytes (e : GtpuExt) (next : UInt8) : List UInt8 := e.units :: (e.content ++ [next])

/-- A chain of headers; the last one names the type `last`. -/
def putExts : List GtpuExt → UInt8 → List UInt8
  | [], _ => []
  | e :: es, last => e.bytes (firstType es last) ++ putExts es last

theorem GtpuExt.length_bytes (e : GtpuExt) (next : UInt8) : (e.bytes next).length = 4 * e.units.toNat := by
  rw [GtpuExt.bytes, List.length_cons, List.length_append, List.length_singleton]
  exact e.length_eq

/-- Where a chain that may have `more` headers stops: the header at `r` is not one. -/
inductive BrokenExt : ℕ → List UInt8 → DecodeStatus → Prop where
  | tooMany {r : List UInt8} : BrokenExt 0 r .badGtpuExt
  | missing {more : ℕ} : BrokenExt (more + 1) [] .badGtpuExt
  | noUnits {more : ℕ} {r : List UInt8} : BrokenExt (more + 1) (0 :: r) .badGtpuExtLen
  | overrun {more : ℕ} {units : UInt8} {r : List UInt8} : units ≠ 0 →
      (units :: r).length < 4 * units.toNat → BrokenExt (more + 1) (units :: r) .badGtpuExt

/-- Bytes start with an extension header, or with a broken one. -/
theorem exists_ext {next : UInt8} (hnext : next ≠ 0) (more : ℕ) (bs : List UInt8) :
    (∃ e : GtpuExt, ∃ next' rest, e.type = next ∧ bs = e.bytes next' ++ rest) ∨
      ∃ st, BrokenExt (more + 1) bs st := by
  cases bs with
  | nil => exact .inr ⟨_, .missing⟩
  | cons units r =>
      by_cases hzero : units = 0
      · subst hzero
        exact .inr ⟨_, .noUnits⟩
      by_cases hlen : (units :: r).length < 4 * units.toNat
      · exact .inr ⟨_, .overrun hzero hlen⟩
      have hpos : units.toNat ≠ 0 := fun h => hzero (UInt8.toNat_inj.mp h)
      rw [List.length_cons] at hlen
      have hdrop : 4 * units.toNat - 2 < r.length := by omega
      have hcontent : (r.take (4 * units.toNat - 2)).length + 2 = 4 * units.toNat := by
        rw [List.length_take]
        omega
      refine .inl ⟨⟨next, units, r.take (4 * units.toNat - 2), hnext, hcontent⟩,
        r[4 * units.toNat - 2], r.drop (4 * units.toNat - 2 + 1), rfl, ?_⟩
      show units :: r = units :: (r.take _ ++ [_] ++ _)
      rw [List.append_assoc, List.singleton_append, List.getElem_cons_drop, List.take_append_drop]

/-- Bytes split into a chain of at most `left` headers and a rest, and the chain ends with type 0
or is broken there. -/
theorem exists_exts : ∀ (left : ℕ) (next : UInt8) (bs : List UInt8), ∃ es last rest,
    bs = putExts es last ++ rest ∧ next = firstType es last ∧ es.length ≤ left ∧
      (last ≠ 0 → ∃ st, BrokenExt (left - es.length) rest st)
  | 0, next, bs => ⟨[], next, bs, rfl, rfl, Nat.le_refl _, fun _ => ⟨_, .tooMany⟩⟩
  | left + 1, next, bs => by
      by_cases hnext : next = 0
      · exact ⟨[], next, bs, rfl, rfl, Nat.zero_le _, fun h => absurd hnext h⟩
      obtain ⟨e, next', rest, htype, rfl⟩ | hbroken := exists_ext hnext left bs
      · obtain ⟨es, last, rest', rfl, rfl, hle, hbroken⟩ := exists_exts left next' rest
        refine ⟨e :: es, last, rest', ?_, htype.symm, Nat.succ_le_succ hle, ?_⟩
        · exact (List.append_assoc _ _ _).symm
        · rw [List.length_cons, Nat.succ_sub_succ]
          exact hbroken
      · exact ⟨[], next, bs, rfl, rfl, Nat.zero_le _, fun _ => hbroken⟩

/-! ### Messages -/

/-- The first byte is of version 1 of GTP-U. -/
def IsV1u (flags : UInt8) : Prop := flags >>> 5 = 1 ∧ flags &&& gtpuFlagPt ≠ 0

/-- The flags announce the optional fields. -/
def HasOpt (flags : UInt8) : Prop := flags &&& (gtpuFlagE ||| gtpuFlagS ||| gtpuFlagPn) ≠ 0

instance (flags : UInt8) : Decidable (IsV1u flags) := inferInstanceAs (Decidable (_ ∧ _))

instance (flags : UInt8) : Decidable (HasOpt flags) := inferInstanceAs (Decidable (_ ≠ _))

theorem hasOpt_of_e {flags : UInt8} (he : flags &&& gtpuFlagE ≠ 0) : HasOpt flags := by
  have hbits : ∀ x : UInt8, x &&& gtpuFlagE ≠ 0 →
      x &&& (gtpuFlagE ||| gtpuFlagS ||| gtpuFlagPn) ≠ 0 := by decide +kernel
  exact hbits flags he

/-- What a message says. -/
structure GtpuFields where
  flags : UInt8
  msgType : UInt8
  teid : UInt32
  seq : UInt16
  npdu : UInt8
  /-- the next-type byte when E is clear: "shall not be interpreted" -/
  unread : UInt8
  exts : List GtpuExt
  rest : List UInt8

namespace GtpuFields

variable (f : GtpuFields)

/-- The next-type byte. -/
def nextType : UInt8 := if f.flags &&& gtpuFlagE ≠ 0 then firstType f.exts 0 else f.unread

def opt : List UInt8 := if HasOpt f.flags then putGtpuOpt f.seq f.npdu f.nextType else []

/-- What the length field counts. -/
def body : List UInt8 := f.opt ++ (putExts f.exts 0 ++ f.rest)

end GtpuFields

/-- A message of GTPv1-U. -/
structure GtpuMessage extends GtpuFields where
  v1u : IsV1u flags
  exts_le : exts.length ≤ gtpuMaxExtHeaders
  exts_e : flags &&& gtpuFlagE = 0 → exts = []
  fits : toGtpuFields.body.length < 2 ^ 16

/-- The message as `put_gtpu`, `put_gtpu_opt` and `put_gtpu_ext` write it. -/
def GtpuMessage.bytes (msg : GtpuMessage) : List UInt8 :=
  putGtpu msg.flags msg.msgType (UInt16.ofNat msg.body.length) msg.teid ++ msg.body

/-- What is wrong with a payload that is of version 1 and not a message. -/
inductive GtpuDefect (p : List UInt8) : DecodeStatus → Prop where
  /-- the length exceeds the datagram -/
  | length {flags type : UInt8} {len : UInt16} {teid : UInt32} {body : List UInt8} :
      p = putGtpu flags type len teid ++ body → IsV1u flags → body.length < len.toNat →
      GtpuDefect p .badGtpuLen
  /-- the length leaves no room for the optional fields -/
  | opt {flags type : UInt8} {len : UInt16} {teid : UInt32} {body : List UInt8} :
      p = putGtpu flags type len teid ++ body → IsV1u flags → HasOpt flags →
      len.toNat ≤ body.length → len.toNat < gtpuOptLen → GtpuDefect p .badGtpuLen
  /-- the chain breaks behind the headers `es` -/
  | ext {flags type : UInt8} {len : UInt16} {teid : UInt32} {seq : UInt16} {npdu last : UInt8}
      {es : List GtpuExt} {r tail : List UInt8} {st : DecodeStatus} :
      p = putGtpu flags type len teid ++
        (putGtpuOpt seq npdu (firstType es last) ++ (putExts es last ++ r) ++ tail) →
      IsV1u flags → flags &&& gtpuFlagE ≠ 0 →
      (putGtpuOpt seq npdu (firstType es last) ++ (putExts es last ++ r)).length = len.toNat →
      es.length ≤ gtpuMaxExtHeaders → last ≠ 0 →
      BrokenExt (gtpuMaxExtHeaders - es.length) r st → GtpuDefect p st

/-- At least eight bytes start with the fields of a header. -/
theorem exists_putGtpu {p : List UInt8} (h : gtpuHdrLen ≤ p.length) :
    ∃ flags type len teid body, p = putGtpu flags type len teid ++ body := by
  obtain ⟨b₀, b₁, b₂, b₃, b₄, b₅, b₆, b₇, body, rfl⟩ :
      ∃ b₀ b₁ b₂ b₃ b₄ b₅ b₆ b₇ body,
        p = b₀ :: b₁ :: b₂ :: b₃ :: b₄ :: b₅ :: b₆ :: b₇ :: body := by
    match p, h with
    | b₀ :: b₁ :: b₂ :: b₃ :: b₄ :: b₅ :: b₆ :: b₇ :: body, _ =>
        exact ⟨_, _, _, _, _, _, _, _, body, rfl⟩
  obtain ⟨len, hlen⟩ := exists_bbBe16 b₂ b₃
  obtain ⟨teid, hteid⟩ := exists_bbBe32 b₄ b₅ b₆ b₇
  refine ⟨b₀, b₁, len, teid, body, ?_⟩
  rw [putGtpu, ← hlen, ← hteid]
  rfl

theorem exists_putGtpuOpt {p : List UInt8} (h : gtpuOptLen ≤ p.length) :
    ∃ seq npdu next body, p = putGtpuOpt seq npdu next ++ body := by
  obtain ⟨b₀, b₁, npdu, next, body, rfl⟩ : ∃ b₀ b₁ npdu next body,
      p = b₀ :: b₁ :: npdu :: next :: body := by
    match p, h with
    | b₀ :: b₁ :: npdu :: next :: body, _ => exact ⟨_, _, _, _, body, rfl⟩
  obtain ⟨seq, hseq⟩ := exists_bbBe16 b₀ b₁
  refine ⟨seq, npdu, next, body, ?_⟩
  rw [putGtpuOpt, ← hseq]
  rfl

theorem GtpuMessage.length_field (msg : GtpuMessage) :
    (UInt16.ofNat msg.body.length).toNat = msg.body.length :=
  UInt16.toNat_ofNat_of_lt' msg.fits

/-- Fields whose body has the length `len` make a message. -/
theorem GtpuFields.bytes_eq (f : GtpuFields) (hv : IsV1u f.flags) (hle : f.exts.length ≤ gtpuMaxExtHeaders)
    (he : f.flags &&& gtpuFlagE = 0 → f.exts = []) {len : UInt16} (hlen : f.body.length = len.toNat) :
    ∃ msg : GtpuMessage, msg.bytes = putGtpu f.flags f.msgType len f.teid ++ f.body := by
  have hfits : f.body.length < 2 ^ 16 := hlen ▸ len.toNat_lt
  refine ⟨⟨f, hv, hle, he, hfits⟩, ?_⟩
  unfold GtpuMessage.bytes
  rw [hlen, UInt16.ofNat_toNat]

/-- **A payload is not of version 1, or starts with a message, or has a defect.** -/
theorem gtpu_cases {p : List UInt8} (h : gtpuHdrLen ≤ p.length) :
    (∃ flags r, p = flags :: r ∧ ¬ IsV1u flags) ∨ (∃ msg : GtpuMessage, ∃ tail, p = msg.bytes ++ tail) ∨
      ∃ st, GtpuDefect p st := by
  obtain ⟨flags, type, len, teid, body, hp⟩ := exists_putGtpu h
  by_cases hv : IsV1u flags
  swap
  · exact .inl ⟨flags, _, hp, hv⟩
  refine .inr ?_
  by_cases hlen : body.length < len.toNat
  · exact .inr ⟨_, .length hp hv hlen⟩
  have hlen' := Nat.le_of_not_lt hlen
  have htake : (body.take len.toNat).length = len.toNat := List.length_take_of_le hlen'
  have hbody : body = body.take len.toNat ++ body.drop len.toNat := (List.take_append_drop _ _).symm
  generalize body.take len.toNat = inside at htake hbody
  generalize body.drop len.toNat = tail at hbody
  subst hbody
  -- a message whose body is `inside`
  have hmsg : ∀ f : GtpuFields, f.flags = flags → f.msgType = type → f.teid = teid → f.body = inside →
      f.exts.length ≤ gtpuMaxExtHeaders → (f.flags &&& gtpuFlagE = 0 → f.exts = []) →
      ∃ msg : GtpuMessage, ∃ tail, p = msg.bytes ++ tail := by
    rintro f rfl rfl rfl rfl hle he
    obtain ⟨msg, hbytes⟩ := f.bytes_eq hv hle he htake
    exact ⟨msg, tail, by rw [hbytes, hp, List.append_assoc]⟩
  by_cases hopt : HasOpt flags
  swap
  · have he : flags &&& gtpuFlagE = 0 := by
      by_contra he
      exact hopt (hasOpt_of_e he)
    refine .inl (hmsg ⟨flags, type, teid, 0, 0, 0, [], inside⟩ rfl rfl rfl ?_ (Nat.zero_le _) fun _ => rfl)
    unfold GtpuFields.body GtpuFields.opt
    rw [if_neg hopt]
    rfl
  by_cases hroom : len.toNat < gtpuOptLen
  · exact .inr ⟨_, .opt hp hv hopt hlen' hroom⟩
  obtain ⟨seq, npdu, next, body, rfl⟩ := exists_putGtpuOpt (htake ▸ Nat.le_of_not_lt hroom)
  by_cases he : flags &&& gtpuFlagE = 0
  · refine .inl (hmsg ⟨flags, type, teid, seq, npdu, next, [], body⟩ rfl rfl rfl ?_ (Nat.zero_le _)
      fun _ => rfl)
    unfold GtpuFields.body GtpuFields.opt GtpuFields.nextType
    rw [if_pos hopt, if_neg (not_not.mpr he)]
    rfl
  obtain ⟨es, last, r, rfl, rfl, hle, hbroken⟩ := exists_exts gtpuMaxExtHeaders next body
  by_cases hlast : last = 0
  · subst hlast
    refine .inl (hmsg ⟨flags, type, teid, seq, npdu, 0, es, r⟩ rfl rfl rfl ?_ hle fun h => absurd h he)
    unfold GtpuFields.body GtpuFields.opt GtpuFields.nextType
    rw [if_pos hopt, if_pos he]
  · obtain ⟨st, hst⟩ := hbroken hlast
    exact .inr ⟨st, .ext hp hv he htake hle hlast hst⟩

end Pcapstat
